import Hysteria.Core.ServerUdp

/-! Idle cleanup of the server's UDP sessions, with a clock and a record of what passed
through each session. The loop takes a session for idle by the client's datagrams alone;
those of its target go through the receive task, which leaves no trace in the session. -/
namespace Hysteria.Core
open Lib

inductive Direction where
  | arrived
  | sent
  | reply
deriving DecidableEq, Repr

structure Passage where
  direction : Direction
  time : Nat
deriving DecidableEq, Repr

/-- `traffic` is what passed through the session that has an id now, from its first datagram
on. -/
structure TimedUdp where
  server : ServerUdp
  now : Nat
  traffic : UInt32 → List Passage

/-- `reply` is a turn of `server_udp_receive_loop`, up to the datagram it sends to the client. -/
inductive TimedEvent where
  | wait (duration : Nat)
  | reply (task : Nat)
  | server (event : ServerUdp.Event)

namespace ServerUdp

def Event.isAt (now : Nat) : Event → Bool
  | .expire _ time => time = now
  | .datagram _ time _ => time = now
  | _ => true

def sentBy (s : ServerUdp) : Event → Option UInt32
  | .sendPacket targetResolves true =>
    match s.serverLoop with
    | .feeding sessionId message =>
      if ((s.sessions.get sessionId).bind (·.resolve message.addr targetResolves)).isSome then
        some sessionId
      else none
    | _ => none
  | _ => none

theorem feedMessage_lastActivity {profile : Profile} {s after : ServerUdp} {message : UDPMessage} {now : Nat}
    {socketOpens : Bool} (hfeed : s.feedMessage profile message now socketOpens = some after) {id : UInt32}
    {session : ServerUdpSession} (hget : after.sessions.get id = some session) :
    id = message.sessionId ∧ session.lastActivity = now ∨
      id ≠ message.sessionId ∧ s.sessions.get id = some session := by
  unfold feedMessage at hfeed
  dsimp only at hfeed
  split at hfeed
  · cases hfeed
    rcases PartialMap.get_of_get_insert hget with ⟨hid, rfl⟩ | hother
    · exact .inl ⟨hid, rfl⟩
    · exact .inr hother
  · split at hfeed
    · cases hfeed
      rcases PartialMap.get_of_get_insert hget with ⟨hid, rfl⟩ | hother
      · exact .inl ⟨hid, rfl⟩
      · exact .inr hother
    -- the session is stored once more, with its socket or closed
    · split at hfeed <;> cases hfeed <;> rcases PartialMap.get_of_get_insert hget with ⟨hid, rfl⟩ | ⟨hne, hget⟩
      · exact .inl ⟨hid, rfl⟩
      · exact .inr ⟨hne, (PartialMap.get_insert_of_ne _ hne _).symm.trans hget⟩
      · exact .inl ⟨hid, rfl⟩
      · exact .inr ⟨hne, (PartialMap.get_insert_of_ne _ hne _).symm.trans hget⟩
  · cases hfeed

theorem lastActivity_resolve {session after : ServerUdpSession} {addr : String} {targetResolves : Bool}
    (h : session.resolve addr targetResolves = some after) : after.lastActivity = session.lastActivity := by
  unfold ServerUdpSession.resolve at h
  split at h
  · cases h
    rfl
  · split at h <;> cases h
    rfl

theorem lastActivity_stored {sessions : PartialMap UInt32 ServerUdpSession} {sessionId id : UInt32}
    {old stored session : ServerUdpSession} (hold : sessions.get sessionId = some old)
    (htime : stored.lastActivity = old.lastActivity) (hget : (sessions.insert sessionId stored).get id = some session) :
    ∃ old, sessions.get id = some old ∧ session.lastActivity = old.lastActivity := by
  rcases PartialMap.get_of_get_insert hget with ⟨rfl, rfl⟩ | ⟨-, hget⟩
  · exact ⟨old, hold, htime⟩
  · exact ⟨session, hget, rfl⟩

theorem step_lastActivity {profile : Profile} {timeout : Nat} {s after : ServerUdp} {event : Event}
    (hstep : step profile timeout s event = some after)
    (hfeeds : ∀ message now socketOpens, event ≠ .datagram message now socketOpens) {id : UInt32}
    {session : ServerUdpSession} (hget : after.sessions.get id = some session) :
    ∃ old, s.sessions.get id = some old ∧ session.lastActivity = old.lastActivity := by
  cases step_cases hstep with
  | @fed message now socketOpens => exact absurd rfl (hfeeds message now socketOpens)
  | expired | noticed | left => exact ⟨session, (PartialMap.get_of_get_remove hget).2, rfl⟩
  | sent _ hold hresolve => exact lastActivity_stored hold (lastActivity_resolve hresolve) hget
  | @unsent _ _ _ resolved _ _ hold hresolve =>
    have htime : resolved.closed.lastActivity = resolved.lastActivity := rfl
    exact lastActivity_stored hold (htime.trans (lastActivity_resolve hresolve)) hget
  | @unresolved _ _ old _ _ _ hold =>
    have htime : old.closed.lastActivity = old.lastActivity := rfl
    exact lastActivity_stored hold htime hget
  | ignored | lost | polled | yielded | ended => exact ⟨session, hget, rfl⟩

end ServerUdp

namespace TimedUdp

def new : TimedUdp where
  server := .new
  now := 0
  traffic _ := []

def record (o : TimedUdp) (sessionId : UInt32) (direction : Direction) : UInt32 → List Passage :=
  fun id => if id = sessionId then o.traffic id ++ [⟨direction, o.now⟩] else o.traffic id

/-- A session that is not in the map is made by its first datagram. -/
def arrive (o : TimedUdp) (sessionId : UInt32) : UInt32 → List Passage :=
  if (o.server.sessions.get sessionId).isSome then o.record sessionId .arrived
  else fun id => if id = sessionId then [⟨.arrived, o.now⟩] else o.traffic id

/-- A reply passes through the session that has the task; that of a task whose session was
closed passes through none. -/
def answered (o : TimedUdp) (task : Nat) (sessionId : UInt32) : UInt32 → List Passage :=
  if (o.server.sessions.get sessionId).any (·.receiveTask = some task) then o.record sessionId .reply
  else o.traffic

def passed (o : TimedUdp) (event : ServerUdp.Event) : UInt32 → List Passage :=
  match event with
  | .datagram message _ _ => o.arrive message.sessionId
  | event =>
    match o.server.sentBy event with
    | some sessionId => o.record sessionId .sent
    | none => o.traffic

def step (profile : Profile) (timeout : Nat) (o : TimedUdp) : TimedEvent → Option TimedUdp
  | .wait duration => some { o with now := o.now + duration }
  | .reply task =>
    match o.server.tasks[task]? with
    | some ⟨sessionId, .polling, _⟩ => some { o with traffic := o.answered task sessionId }
    | _ => none
  | .server event =>
    if event.isAt o.now then
      (o.server.step profile timeout event).map fun server => { o with server, traffic := o.passed event }
    else none

def Silent (o : TimedUdp) (timeout : Nat) (sessionId : UInt32) : Prop :=
  ∀ passage ∈ o.traffic sessionId, timeout < o.now - passage.time

/-- A datagram of the client arrived no earlier than the passage. -/
def Followed (o : TimedUdp) (sessionId : UInt32) (passage : Passage) : Prop :=
  ∃ arrival ∈ o.traffic sessionId, arrival.direction = .arrived ∧ passage.time ≤ arrival.time

/-- A session is removed by the cleanup only where each reply and each packet that was sent on is followed. -/
def Attended (o : TimedUdp) : TimedEvent → Prop
  | .server (.expire sessionId _) => ∀ passage ∈ o.traffic sessionId, o.Followed sessionId passage
  | _ => True

def RemovesSilent (timeout : Nat) (o : TimedUdp) : TimedEvent → Prop
  | .server (.expire sessionId _) => o.Silent timeout sessionId
  | _ => True

/-- The time in a session is that of the last datagram that arrived. -/
structure Tracked (o : TimedUdp) : Prop where
  latest : ∀ id session, o.server.sessions.get id = some session →
    ⟨.arrived, session.lastActivity⟩ ∈ o.traffic id ∧
      ∀ passage ∈ o.traffic id, passage.direction = .arrived → passage.time ≤ session.lastActivity
  past : ∀ id, ∀ passage ∈ o.traffic id, passage.time ≤ o.now

theorem new_tracked : new.Tracked where
  latest := by simp [new, ServerUdp.new]
  past := by simp [new]

theorem mem_record {o : TimedUdp} {sessionId id : UInt32} {direction : Direction} {passage : Passage} :
    passage ∈ o.record sessionId direction id ↔
      passage ∈ o.traffic id ∨ id = sessionId ∧ passage = ⟨direction, o.now⟩ := by
  unfold record
  split <;> simp_all

structure Adds (o : TimedUdp) (traffic : UInt32 → List Passage) : Prop where
  kept : ∀ id, ∀ passage ∈ o.traffic id, passage ∈ traffic id
  added : ∀ id, ∀ passage ∈ traffic id, passage ∈ o.traffic id ∨
    passage.direction ≠ .arrived ∧ passage.time = o.now

theorem adds_none (o : TimedUdp) : o.Adds o.traffic := ⟨fun _ _ => id, fun _ _ => .inl⟩

theorem adds_record (o : TimedUdp) (sessionId : UInt32) {direction : Direction} (h : direction ≠ .arrived) :
    o.Adds (o.record sessionId direction) where
  kept id passage hmem := mem_record.mpr (.inl hmem)
  added id passage hmem := by
    rcases mem_record.mp hmem with hold | ⟨-, rfl⟩
    · exact .inl hold
    · exact .inr ⟨h, rfl⟩

section
variable {o : TimedUdp} (h : o.Tracked)

include h

theorem Tracked.keep {server : ServerUdp} {traffic : UInt32 → List Passage}
    (hkept : ∀ id session, server.sessions.get id = some session →
      ∃ old, o.server.sessions.get id = some old ∧ session.lastActivity = old.lastActivity)
    (hadds : o.Adds traffic) : Tracked { o with server, traffic } where
  latest := by
    intro id session hget
    obtain ⟨old, hold, htime⟩ := hkept id session hget
    obtain ⟨hlast, hle⟩ := h.latest id old hold
    rw [htime]
    refine ⟨hadds.kept id _ hlast, ?_⟩
    intro passage hmem harrived
    rcases hadds.added id passage hmem with hmem | ⟨hne, -⟩
    · exact hle passage hmem harrived
    · exact absurd harrived hne
  past := by
    intro id passage hmem
    rcases hadds.added id passage hmem with hmem | ⟨-, htime⟩
    · exact h.past id passage hmem
    · exact htime.le

theorem Tracked.feed {profile : Profile} {message : UDPMessage} {socketOpens : Bool} {server : ServerUdp}
    (hfeed : o.server.feedMessage profile message o.now socketOpens = some server) :
    Tracked { o with server, traffic := o.arrive message.sessionId } := by
  have hself : ⟨.arrived, o.now⟩ ∈ o.arrive message.sessionId message.sessionId := by
    unfold arrive
    split
    · exact mem_record.mpr (.inr ⟨rfl, rfl⟩)
    · simp
  have hother : ∀ id, id ≠ message.sessionId → o.arrive message.sessionId id = o.traffic id := by
    intro id hne
    unfold arrive record
    split <;> exact if_neg hne
  have hpast : ∀ id, ∀ passage ∈ o.arrive message.sessionId id, passage.time ≤ o.now := by
    intro id passage hmem
    unfold arrive at hmem
    split at hmem
    · rcases mem_record.mp hmem with hold | ⟨-, rfl⟩
      · exact h.past id passage hold
      · exact Nat.le_refl o.now
    · dsimp only at hmem
      split at hmem
      · rw [List.mem_singleton.mp hmem]
      · exact h.past id passage hmem
  refine ⟨?_, hpast⟩
  intro id session hget
  rcases ServerUdp.feedMessage_lastActivity hfeed hget with ⟨rfl, htime⟩ | ⟨hne, hold⟩
  · rw [htime]
    exact ⟨hself, fun passage hmem _ => hpast _ passage hmem⟩
  · dsimp only
    rw [hother id hne]
    exact h.latest id session hold

end

theorem step_tracked {profile : Profile} {timeout : Nat} {o after : TimedUdp} {event : TimedEvent}
    (h : o.Tracked) (hstep : step profile timeout o event = some after) : after.Tracked := by
  cases event with
  | wait duration =>
    cases hstep
    exact ⟨h.latest, fun id passage hmem => (h.past id passage hmem).trans (Nat.le_add_right _ _)⟩
  | reply task =>
    simp only [step] at hstep
    split at hstep <;> cases hstep
    refine h.keep (fun id session hget => ⟨session, hget, rfl⟩) ?_
    unfold answered
    split
    · exact adds_record o _ (by decide)
    · exact adds_none o
  | server event =>
    simp only [step] at hstep
    split at hstep
    case isFalse => cases hstep
    case isTrue hat =>
      obtain ⟨server, hserver, rfl⟩ := Option.map_eq_some_iff.mp hstep
      by_cases hfeeds : ∃ message now socketOpens, event = .datagram message now socketOpens
      · obtain ⟨message, now, socketOpens, rfl⟩ := hfeeds
        obtain rfl : now = o.now := of_decide_eq_true hat
        cases ServerUdp.step_cases hserver with
        | fed hfeed => exact h.feed hfeed
      · have hother : ∀ message now socketOpens, event ≠ .datagram message now socketOpens :=
          fun message now socketOpens heq => hfeeds ⟨message, now, socketOpens, heq⟩
        refine h.keep (fun id session => ServerUdp.step_lastActivity hserver hother) ?_
        unfold passed
        split
        · exact absurd rfl (hother _ _ _)
        · split
          · exact adds_record o _ (by decide)
          · exact adds_none o

section
variable {profile : Profile} {timeout : Nat} {o after : TimedUdp} {id : UInt32} {session : ServerUdpSession}

theorem isIdle_of_expire {time : Nat} (h : step profile timeout o (.server (.expire id time)) = some after) :
    time = o.now ∧ ∃ session, o.server.sessions.get id = some session ∧ session.isIdle o.now timeout := by
  simp only [step] at h
  split at h
  case isFalse => cases h
  case isTrue hat =>
    obtain rfl : time = o.now := of_decide_eq_true hat
    obtain ⟨server, hserver, -⟩ := Option.map_eq_some_iff.mp h
    simp only [ServerUdp.step] at hserver
    split at hserver
    · next session _ hget =>
      obtain ⟨hidle, -⟩ := Option.ite_none_right_eq_some.mp hserver
      exact ⟨rfl, session, hget, hidle⟩
    · cases hserver

theorem expire_of_isIdle (hloop : o.server.serverLoop = .selecting) (hget : o.server.sessions.get id = some session)
    (hidle : session.isIdle o.now timeout) :
    ∃ after, step profile timeout o (.server (.expire id o.now)) = some after := by
  have hat : (ServerUdp.Event.expire id o.now).isAt o.now = true := decide_eq_true rfl
  simp only [step, if_pos hat, ServerUdp.step, hloop, hget, if_pos hidle]
  exact ⟨_, rfl⟩

theorem Tracked.followed_iff (h : o.Tracked) (hget : o.server.sessions.get id = some session) {passage : Passage} :
    o.Followed id passage ↔ passage.time ≤ session.lastActivity := by
  obtain ⟨hlast, hlatest⟩ := h.latest id session hget
  constructor
  · rintro ⟨arrival, hmem, harrived, hle⟩
    exact hle.trans (hlatest arrival hmem harrived)
  · exact fun hle => ⟨_, hlast, rfl, hle⟩

theorem Tracked.removesSilent (h : o.Tracked) {event : TimedEvent} (hstep : step profile timeout o event = some after)
    (hattended : o.Attended event) : o.RemovesSilent timeout event := by
  unfold RemovesSilent
  split
  · next id time =>
    obtain ⟨-, session, hget, hidle⟩ := isIdle_of_expire hstep
    intro passage hmem
    have hle := (h.followed_iff hget).mp (hattended passage hmem)
    rw [ServerUdpSession.isIdle, decide_eq_true_iff] at hidle
    omega
  · trivial

/-- The moment at which a session is idle for the first time. -/
theorem Tracked.exists_removal (h : o.Tracked) (hloop : o.server.serverLoop = .selecting)
    (hget : o.server.sessions.get id = some session) {passage : Passage} (hmem : passage ∈ o.traffic id)
    (hrecent : o.now - passage.time ≤ timeout) (hlater : session.lastActivity < passage.time) :
    ∃ duration after,
      step profile timeout { o with now := o.now + duration } (.server (.expire id (o.now + duration))) = some after ∧
      o.now + duration - passage.time ≤ timeout := by
  have hpast := h.past id passage hmem
  obtain ⟨duration, hidle, hstill⟩ : ∃ duration, timeout < o.now + duration - session.lastActivity ∧
      o.now + duration - passage.time ≤ timeout := by
    by_cases hdue : timeout < o.now - session.lastActivity
    · exact ⟨0, hdue, hrecent⟩
    · exact ⟨session.lastActivity + timeout + 1 - o.now, by omega, by omega⟩
  obtain ⟨after, hafter⟩ := @expire_of_isIdle profile timeout { o with now := o.now + duration } id session hloop hget
    (decide_eq_true hidle)
  exact ⟨duration, after, hafter, hstill⟩

end

/-- Idle cleanup goes by the client's datagrams alone. Along every run in which a session is removed only
after a datagram of the client has followed its last reply and its last packet, a removed session was silent
for longer than the timeout. Conversely, from a state in which no datagram of the client has followed one of
them, some wait leads to a removal of a session that was not. -/
theorem idle_cleanup_silent (profile : Profile) (timeout : Nat) (events : List TimedEvent) :
    (Along (step profile timeout) (fun o event _ => o.Attended event) new events →
      Along (step profile timeout) (fun o event _ => o.RemovesSilent timeout event) new events) ∧
    ∀ o id, run (step profile timeout) new events = some o → o.server.serverLoop = .selecting →
      (o.server.sessions.get id).isSome →
      ((∀ duration after,
          step profile timeout { o with now := o.now + duration } (.server (.expire id (o.now + duration))) = some after →
          Silent { o with now := o.now + duration } timeout id) ↔
        ∀ passage ∈ o.traffic id, o.Followed id passage ∨ timeout < o.now - passage.time) := by
  constructor
  · exact along_of_inv (I := Tracked)
      (fun o event after htracked hstep hattended =>
        ⟨step_tracked htracked hstep, htracked.removesSilent hstep hattended⟩) new_tracked
  · intro o id hrun hloop hsome
    have htracked : o.Tracked := run_induction (fun _ _ _ h hstep => step_tracked h hstep) new_tracked hrun
    obtain ⟨session, hget⟩ := Option.isSome_iff_exists.mp hsome
    constructor
    · intro hsilent passage hmem
      by_contra hneither
      rw [not_or, htracked.followed_iff hget, Nat.not_le, Nat.not_lt] at hneither
      obtain ⟨duration, after, hafter, hrecent⟩ :=
        @Tracked.exists_removal profile timeout o id session htracked hloop hget passage hmem hneither.2 hneither.1
      exact Nat.not_lt.mpr hrecent (hsilent duration after hafter passage hmem)
    · intro hall duration after hafter passage hmem
      obtain ⟨-, session, hget, hidle⟩ := isIdle_of_expire hafter
      rw [ServerUdpSession.isIdle, decide_eq_true_iff] at hidle
      rcases hall passage hmem with hfollowed | hold
      · have hle := (htracked.followed_iff hget).mp hfollowed
        dsimp only at hidle ⊢
        omega
      · dsimp only
        omega

def twoExchanges : List TimedEvent :=
  [.server (.datagram ⟨5, 0, 0, 1, "a:1", [1]⟩ 0 true), .server (.sendPacket true true), .server (.pollTask 0),
    .wait 10, .reply 0, .wait 20, .server (.datagram ⟨5, 0, 0, 1, "a:1", [2]⟩ 30 true),
    .server (.sendPacket true true), .wait 61, .server (.expire 5 91)]

theorem idle_cleanup_silent_twoExchanges :
    (run (step ⟨true⟩ 60) new twoExchanges).isSome ∧
      Along (step ⟨true⟩ 60) (fun o event _ => o.RemovesSilent 60 event) new twoExchanges ∧
      ∃ o, run (step ⟨true⟩ 60) new (twoExchanges.take 6) = some o ∧
        ¬ ∀ duration after,
          step ⟨true⟩ 60 { o with now := o.now + duration } (.server (.expire 5 (o.now + duration))) = some after →
          Silent { o with now := o.now + duration } 60 5 := by
  refine ⟨rfl, (idle_cleanup_silent ⟨true⟩ 60 twoExchanges).1 ?_, _, rfl, ?_⟩
  · iterate 9 rintro _ ⟨⟩; refine ⟨trivial, ?_⟩
    intro after _
    refine ⟨?_, trivial⟩
    let traffic : List Passage := [⟨.arrived, 0⟩, ⟨.sent, 0⟩, ⟨.reply, 10⟩, ⟨.arrived, 30⟩, ⟨.sent, 30⟩]
    change ∀ passage ∈ traffic, ∃ arrival ∈ traffic, arrival.direction = .arrived ∧ passage.time ≤ arrival.time
    decide
  · rw [(idle_cleanup_silent ⟨true⟩ 60 (twoExchanges.take 6)).2 _ 5 rfl rfl rfl]
    unfold Followed
    decide

/-- The target streams to the client, which only asked once: the session is removed right
after a reply. So it is right after a packet whose target took long to resolve. -/
theorem streaming_session_removed :
    (∃ o after, run (step ⟨true⟩ 60) new
        [.server (.datagram ⟨5, 0, 0, 1, "a:1", [1]⟩ 0 true), .server (.sendPacket true true),
          .server (.pollTask 0), .wait 30, .reply 0, .wait 31, .reply 0] = some o ∧
      step ⟨true⟩ 60 o (.server (.expire 5 o.now)) = some after ∧ ⟨.reply, o.now⟩ ∈ o.traffic 5 ∧
      after.server.sessions.get 5 = none) ∧
    ∃ o after, run (step ⟨true⟩ 60) new
        [.server (.datagram ⟨5, 0, 0, 1, "a:1", [1]⟩ 0 true), .wait 61, .server (.sendPacket true true)] = some o ∧
      step ⟨true⟩ 60 o (.server (.expire 5 o.now)) = some after ∧ ⟨.sent, o.now⟩ ∈ o.traffic 5 ∧
      after.server.sessions.get 5 = none :=
  ⟨⟨_, _, rfl, rfl, by decide, rfl⟩, _, _, rfl, rfl, by decide, rfl⟩

end TimedUdp
end Hysteria.Core
