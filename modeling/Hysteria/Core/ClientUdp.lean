import Hysteria.Core.DefraggerRun
import Hysteria.Lib.Transition

/-! The client's `ClientUdpManager` in `udp.rs`: a map from session ids to the
senders of their channels, filled by `new_udp`, read and in the end cleared by the
reader loop. Each lock acquisition and each access to an atomic is one step. -/
namespace Hysteria.Core
open Lib

inductive ReceiveOutcome where
  | received (data : List UInt8) (addr : String)
  | failed (error : CoreError)
  | waiting
deriving DecidableEq, Repr

/-- A session `new_udp` has returned, with the receiving half of its channel. Every
drop of a handle closes the session; the receiver goes with the last of them. -/
structure UdpSession where
  sessionId : UInt32
  capacity : Nat
  queue : List UDPMessage
  defragger : Defragger
  closed : Bool
  dropped : Bool

/-- The loop of `receive`, with the messages left in the channel. An empty channel
is at its end once no sender is left, and makes the call wait before. -/
def receiveLoop (profile : Profile) (senderAlive : Bool) (defragger : Defragger) :
    List UDPMessage → Exec ε (ReceiveOutcome × Defragger × List UDPMessage)
  | [] => .ok (if senderAlive then .waiting else .failed (.closed "udp session closed"), defragger, [])
  | message :: queue => do
    let (out, defragger) ← defragger.feed profile message
    match out with
    | some message => return (.received message.data message.addr, defragger, queue)
    | none => receiveLoop profile senderAlive defragger queue

def UdpSession.receive (profile : Profile) (senderAlive : Bool) (session : UdpSession) :
    Exec ε (ReceiveOutcome × UdpSession) := do
  let (outcome, defragger, queue) ← receiveLoop profile senderAlive session.defragger session.queue
  return (outcome, { session with defragger, queue })

def UdpSession.receiveTimes (profile : Profile) (senderAlive : Bool) :
    Nat → UdpSession → Exec ε (List ReceiveOutcome × UdpSession)
  | 0, session => .ok ([], session)
  | n + 1, session => do
    let (outcome, session) ← session.receive profile senderAlive
    let (outcomes, session) ← session.receiveTimes profile senderAlive n
    return (outcome :: outcomes, session)

/-- Where a call of `new_udp` stands that has not returned yet. -/
inductive NewUdp where
  | checked (messageChannelSize : Nat)
  | numbered (messageChannelSize : Nat) (sessionId : UInt32)
deriving DecidableEq, Repr

/-- Where the reader loop stands; `forwarding` holds a clone of the sender of one
session while it waits for room in the channel. -/
inductive Reader where
  | reading
  | forwarding (session : Nat) (message : UDPMessage)
  | stored
  | finished
deriving DecidableEq, Repr

/-- The manager with everything that runs on it. Sessions are numbered in the order
in which they were returned, and the map holds the sender of the numbered one. -/
structure ClientUdpManager where
  closed : Bool
  nextId : UInt32
  sessions : PartialMap UInt32 Nat
  calls : PartialMap Nat NewUdp
  returned : List UdpSession
  removals : List UInt32
  reader : Reader

namespace ClientUdpManager

def new : ClientUdpManager where
  closed := false
  nextId := 1
  sessions := .empty
  calls := .empty
  returned := []
  removals := []
  reader := .reading

def newUdpCheck (closed : Bool) (messageChannelSize : Nat) : Except CoreError NewUdp :=
  if closed then .error (.closed "udp session manager closed")
  else if messageChannelSize = 0 then
    .error (.config "udp session message_channel_size must be greater than 0")
  else .ok (.checked messageChannelSize)

def senderAlive (manager : ClientUdpManager) (i : Nat) (session : UdpSession) : Bool :=
  manager.sessions.get session.sessionId = some i ||
    match manager.reader with
    | .forwarding j _ => i = j
    | _ => false

inductive Event where
  | load (call messageChannelSize : Nat)
  | fetchAdd (call : Nat)
  | insert (call : Nat)
  | datagram (bytes : List UInt8)
  | forward
  | store
  | clear
  | receive (session : Nat)
  | swapClosed (session : Nat)
  | removeSession (sessionId : UInt32)
  | dropLast (session : Nat)

/-- `load`, `fetchAdd` and `insert` are the steps of `new_udp`; `datagram` and
`forward` those of the reader loop, and `store` and `clear` its last ones, which
are `close_all`; `swapClosed` and `removeSession` close a session. -/
def step (profile : Profile) (manager : ClientUdpManager) : Event → Option ClientUdpManager
  | .load call messageChannelSize =>
    match manager.calls.get call, newUdpCheck manager.closed messageChannelSize with
    | none, .ok checked => some { manager with calls := manager.calls.insert call checked }
    | none, .error _ => some manager
    | some _, _ => none
  | .fetchAdd call =>
    match manager.calls.get call with
    | some (.checked size) => some { manager with
        nextId := manager.nextId + 1
        calls := manager.calls.insert call (.numbered size manager.nextId) }
    | _ => none
  | .insert call =>
    match manager.calls.get call with
    | some (.numbered capacity sessionId) => some { manager with
        sessions := manager.sessions.insert sessionId manager.returned.length
        calls := manager.calls.remove call
        returned := manager.returned ++
          [{ sessionId, capacity, queue := [], defragger := .empty, closed := false, dropped := false }] }
    | _ => none
  | .datagram bytes =>
    match manager.reader, parseUdpMessage bytes with
    | .reading, .ok message =>
      match manager.sessions.get message.sessionId with
      | some session => some { manager with reader := .forwarding session message }
      | none => some manager
    | .reading, .error _ => some manager
    | _, _ => none
  | .forward =>
    match manager.reader with
    | .forwarding i message =>
      match manager.returned[i]? with
      | some session =>
        -- A send to a channel without receiver fails, which the loop ignores.
        if session.dropped then some { manager with reader := .reading }
        else if session.queue.length < session.capacity then
          some { manager with
            returned := manager.returned.set i { session with queue := session.queue ++ [message] }
            reader := .reading }
        else none
      | none => none
    | _ => none
  | .store =>
    match manager.reader with
    | .reading => some { manager with closed := true, reader := .stored }
    | _ => none
  | .clear =>
    match manager.reader with
    | .stored => some { manager with sessions := .empty, reader := .finished }
    | _ => none
  | .receive i =>
    match manager.returned[i]? with
    | some session =>
      match (session.receive profile (manager.senderAlive i session) : Exec Empty _) with
      | .ok (_, session) => some { manager with returned := manager.returned.set i session }
      | .error _ => none
    | none => none
  | .swapClosed i =>
    match manager.returned[i]? with
    | some session => some { manager with
        returned := manager.returned.set i { session with closed := true }
        removals := if session.closed then manager.removals
          else session.sessionId :: manager.removals }
    | none => none
  | .removeSession sessionId =>
    if sessionId ∈ manager.removals then
      some { manager with
        sessions := manager.sessions.remove sessionId
        removals := manager.removals.erase sessionId }
    else none
  | .dropLast i =>
    match manager.returned[i]? with
    | some session =>
      if session.closed then
        some { manager with returned := manager.returned.set i { session with dropped := true } }
      else none
    | none => none

inductive Step (profile : Profile) (m : ClientUdpManager) : Event → ClientUdpManager → Prop where
  | refused {call size : Nat} : Step profile m (.load call size) m
  | checked {call size : Nat} : m.closed = false → size ≠ 0 → m.calls.get call = none →
      Step profile m (.load call size) { m with calls := m.calls.insert call (.checked size) }
  | fetchAdd {call size : Nat} : m.calls.get call = some (.checked size) →
      Step profile m (.fetchAdd call) { m with
        nextId := m.nextId + 1
        calls := m.calls.insert call (.numbered size m.nextId) }
  | insert {call capacity : Nat} {sessionId : UInt32} :
      m.calls.get call = some (.numbered capacity sessionId) →
      Step profile m (.insert call) { m with
        sessions := m.sessions.insert sessionId m.returned.length
        calls := m.calls.remove call
        returned := m.returned ++ [⟨sessionId, capacity, [], .empty, false, false⟩] }
  | skipped {bytes : List UInt8} : m.reader = .reading → Step profile m (.datagram bytes) m
  | picked {bytes : List UInt8} {message : UDPMessage} {i : Nat} : m.reader = .reading →
      parseUdpMessage bytes = .ok message → m.sessions.get message.sessionId = some i →
      Step profile m (.datagram bytes) { m with reader := .forwarding i message }
  | discarded {i : Nat} {message : UDPMessage} {session : UdpSession} :
      m.reader = .forwarding i message → m.returned[i]? = some session → session.dropped = true →
      Step profile m .forward { m with reader := .reading }
  | queued {i : Nat} {message : UDPMessage} {session : UdpSession} :
      m.reader = .forwarding i message → m.returned[i]? = some session →
      session.dropped = false → session.queue.length < session.capacity →
      Step profile m .forward { m with
        returned := m.returned.set i { session with queue := session.queue ++ [message] }
        reader := .reading }
  | stored : m.reader = .reading →
      Step profile m .store { m with closed := true, reader := .stored }
  | cleared : m.reader = .stored →
      Step profile m .clear { m with sessions := .empty, reader := .finished }
  | received {i : Nat} {session after : UdpSession} {outcome : ReceiveOutcome} :
      m.returned[i]? = some session →
      (session.receive profile (m.senderAlive i session) : Exec Empty _) = .ok (outcome, after) →
      Step profile m (.receive i) { m with returned := m.returned.set i after }
  | swapped {i : Nat} {session : UdpSession} : m.returned[i]? = some session →
      Step profile m (.swapClosed i) { m with
        returned := m.returned.set i { session with closed := true }
        removals := if session.closed then m.removals else session.sessionId :: m.removals }
  | removed {sessionId : UInt32} : sessionId ∈ m.removals →
      Step profile m (.removeSession sessionId) { m with
        sessions := m.sessions.remove sessionId
        removals := m.removals.erase sessionId }
  | dropped {i : Nat} {session : UdpSession} : m.returned[i]? = some session →
      session.closed = true →
      Step profile m (.dropLast i)
        { m with returned := m.returned.set i { session with dropped := true } }

theorem step_cases {profile : Profile} {m after : ClientUdpManager} {event : Event}
    (h : step profile m event = some after) : Step profile m event after := by
  cases event with
  | load call size =>
    simp only [step] at h
    split at h
    · next hcall hcheck =>
      cases h
      unfold newUdpCheck at hcheck
      split at hcheck
      · cases hcheck
      · next hopen =>
        split at hcheck
        · cases hcheck
        · next hsize =>
          cases hcheck
          exact .checked (by simpa using hopen) hsize hcall
    · cases h
      exact .refused
    · cases h
  | fetchAdd call =>
    simp only [step] at h
    split at h
    · next hcall =>
      cases h
      exact .fetchAdd hcall
    · cases h
  | insert call =>
    simp only [step] at h
    split at h
    · next hcall =>
      cases h
      exact .insert hcall
    · cases h
  | datagram bytes =>
    simp only [step] at h
    split at h
    · next hreader hparse =>
      split at h
      · next hget =>
        cases h
        exact .picked hreader hparse hget
      · cases h
        exact .skipped hreader
    · next hreader _ =>
      cases h
      exact .skipped hreader
    · cases h
  | forward =>
    simp only [step] at h
    split at h
    · next hreader =>
      split at h
      · next hsession =>
        split at h
        · next hdropped =>
          cases h
          exact .discarded hreader hsession hdropped
        · next hdropped =>
          split at h
          · next hroom =>
            cases h
            exact .queued hreader hsession (by simpa using hdropped) hroom
          · cases h
      · cases h
    · cases h
  | store =>
    simp only [step] at h
    split at h
    · next hreader =>
      cases h
      exact .stored hreader
    · cases h
  | clear =>
    simp only [step] at h
    split at h
    · next hreader =>
      cases h
      exact .cleared hreader
    · cases h
  | receive i =>
    simp only [step] at h
    split at h
    · next hsession =>
      split at h
      · next hreceive =>
        cases h
        exact .received hsession hreceive
      · cases h
    · cases h
  | swapClosed i =>
    simp only [step] at h
    split at h
    · next hsession =>
      cases h
      exact .swapped hsession
    · cases h
  | removeSession sessionId =>
    simp only [step] at h
    split at h
    · next hmem =>
      cases h
      exact .removed hmem
    · cases h
  | dropLast i =>
    simp only [step] at h
    split at h
    · next hsession =>
      split at h
      · next hclosed =>
        cases h
        exact .dropped hsession hclosed
      · cases h
    · cases h

end ClientUdpManager
end Hysteria.Core
