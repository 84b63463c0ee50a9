import Hysteria.Core.ServerUdp

/-! Close notifications of the server's UDP sessions. A notification names a session
id, and the loop closes whatever is open under that id when it reads it. -/
namespace Hysteria.Core
open Lib

def ReceiveTask.CanSend (task : ReceiveTask) : Prop :=
  task.status = .polling ∨ task.status = .idle ∧ task.aborted = false

theorem canSend_of_abortTask {tasks : List ReceiveTask} {aborted : Option Nat} {m : Nat}
    {task : ReceiveTask} (h : (abortTask tasks aborted)[m]? = some task) (hsend : task.CanSend) :
    ∃ old, tasks[m]? = some old ∧ old.sessionId = task.sessionId ∧ old.CanSend := by
  cases aborted with
  | none => exact ⟨task, h, rfl, hsend⟩
  | some n =>
    obtain ⟨old, hold, ⟨_, rfl⟩ | ⟨_, rfl⟩⟩ := of_getElem?_modify h
    · refine ⟨old, hold, rfl, ?_⟩
      rcases hsend with hpolling | ⟨_, hlive⟩
      · exact .inl hpolling
      · cases hlive
    · exact ⟨task, hold, rfl, hsend⟩

theorem ServerUdpSession.resolve_eq {session after : ServerUdpSession} {addr : String}
    {targetResolves : Bool} (h : session.resolve addr targetResolves = some after) :
    after.sessionId = session.sessionId ∧ after.receiveTask = session.receiveTask ∧
      after.socket = session.socket := by
  unfold resolve at h
  split at h
  · cases h
    exact ⟨rfl, rfl, rfl⟩
  · split at h
    · cases h
      exact ⟨rfl, rfl, rfl⟩
    · cases h

namespace ServerUdp

/-- Nobody but the task `n` reports, or has reported, the end of the session id. -/
def Owned (s : ServerUdp) (sessionId : UInt32) (n : Nat) : Prop :=
  (∀ notice ∈ s.closeRx, notice.sessionId = sessionId → notice.sender = n) ∧
    ∀ (m : Nat) (task : ReceiveTask), s.tasks[m]? = some task → task.sessionId = sessionId →
      task.CanSend → m = n

structure Fresh (s : ServerUdp) : Prop where
  key : ∀ id session, s.sessions.get id = some session → session.sessionId = id
  paired : ∀ id session, s.sessions.get id = some session → session.receiveTask = session.socket
  owned : ∀ id session n, s.sessions.get id = some session → session.receiveTask = some n →
    s.Owned id n

/-- A step that opens no socket: sessions keep their socket or lose it, and nobody
can report who could not before. -/
structure Narrows (s after : ServerUdp) : Prop where
  session : ∀ id session, after.sessions.get id = some session → session.sessionId = id ∧
    ((∃ old, s.sessions.get id = some old ∧ session.receiveTask = old.receiveTask ∧
      session.socket = old.socket) ∨ session.receiveTask = none ∧ session.socket = none)
  task : ∀ (m : Nat) (task : ReceiveTask), after.tasks[m]? = some task → task.CanSend →
    ∃ old, s.tasks[m]? = some old ∧ old.sessionId = task.sessionId ∧ old.CanSend
  notice : ∀ notice ∈ after.closeRx, notice ∈ s.closeRx ∨
    ∃ task, s.tasks[notice.sender]? = some task ∧ task.sessionId = notice.sessionId ∧ task.CanSend

theorem new_fresh : new.Fresh where
  key := by simp [new]
  paired := by simp [new]
  owned := by simp [new]

theorem Owned.narrow {s after : ServerUdp} {sessionId : UInt32} {n : Nat}
    (h : s.Owned sessionId n) (hnarrows : Narrows s after) : after.Owned sessionId n := by
  constructor
  · intro notice hnotice hid
    rcases hnarrows.notice notice hnotice with hold | ⟨task, htask, hsession, hsend⟩
    · exact h.1 notice hold hid
    · exact h.2 _ task htask (hsession.trans hid) hsend
  · intro m task htask hid hsend
    obtain ⟨old, hold, hsession, hsend⟩ := hnarrows.task m task htask hsend
    exact h.2 m old hold (hsession.trans hid) hsend

theorem Fresh.narrow {s after : ServerUdp} (h : s.Fresh) (hnarrows : Narrows s after) :
    after.Fresh where
  key := fun id session hget => (hnarrows.session id session hget).1
  paired := by
    intro id session hget
    rcases (hnarrows.session id session hget).2 with ⟨old, hold, htask, hsocket⟩ | ⟨htask, hsocket⟩
    · rw [htask, hsocket]
      exact h.paired id old hold
    · rw [htask, hsocket]
  owned := by
    intro id session n hget hn
    rcases (hnarrows.session id session hget).2 with ⟨old, hold, htask, _⟩ | ⟨htask, _⟩
    · exact (h.owned id old n hold (htask.symm.trans hn)).narrow hnarrows
    · rw [hn] at htask
      cases htask

/-- No notification with the session id is pending and no task can still send one. -/
def Unreported (s : ServerUdp) (sessionId : UInt32) : Prop :=
  (∀ notice ∈ s.closeRx, notice.sessionId ≠ sessionId) ∧
    ∀ (m : Nat) (task : ReceiveTask), s.tasks[m]? = some task → task.sessionId = sessionId →
      ¬ task.CanSend

theorem Fresh.openSocket {s : ServerUdp} (h : s.Fresh) {id : UInt32} {session : ServerUdpSession}
    (hid : session.sessionId = id) (hquiet : s.Unreported id) :
    (s.openSocket id session).Fresh := by
  have hget {other : UInt32} {found : ServerUdpSession}
      (hfound : (s.openSocket id session).sessions.get other = some found) :
      other = id ∧ found = { session with
        socket := some s.tasks.length, receiveTask := some s.tasks.length } ∨
      other ≠ id ∧ s.sessions.get other = some found :=
    PartialMap.get_of_get_insert hfound
  have hnew {m : Nat} {task : ReceiveTask} (hm : (s.openSocket id session).tasks[m]? = some task) :
      s.tasks[m]? = some task ∨ m = s.tasks.length ∧ task.sessionId = id := by
    rcases of_getElem?_concat hm with hold | ⟨rfl, rfl⟩
    · exact .inl hold
    · exact .inr ⟨rfl, hid⟩
  constructor
  · intro other found hfound
    rcases hget hfound with ⟨rfl, rfl⟩ | ⟨_, hold⟩
    · exact hid
    · exact h.key other found hold
  · intro other found hfound
    rcases hget hfound with ⟨rfl, rfl⟩ | ⟨_, hold⟩
    · rfl
    · exact h.paired other found hold
  · intro other found n hfound hn
    rcases hget hfound with ⟨rfl, rfl⟩ | ⟨hne, hold⟩
    · obtain rfl : s.tasks.length = n := Option.some.inj hn
      refine ⟨fun notice hmem hsame => absurd hsame (hquiet.1 notice hmem), ?_⟩
      intro m task hm hsame hsend
      rcases hnew hm with hm | ⟨hm, _⟩
      · exact absurd hsend (hquiet.2 m task hm hsame)
      · exact hm
    · obtain ⟨hnotices, hsenders⟩ := h.owned other found n hold hn
      refine ⟨hnotices, ?_⟩
      intro m task hm hsame hsend
      rcases hnew hm with hm | ⟨_, hid'⟩
      · exact hsenders m task hm hsame hsend
      · exact absurd (hsame.symm.trans hid') hne

section
variable {s : ServerUdp} (h : s.Fresh) {id : UInt32} {session : ServerUdpSession}

include h

theorem narrows_removeSession (id : UInt32) (session : ServerUdpSession) :
    Narrows s (s.removeSession id session) where
  session := by
    intro other found hfound
    have hold := (PartialMap.get_of_get_remove hfound).2
    exact ⟨h.key other found hold, .inl ⟨found, hold, rfl, rfl⟩⟩
  task := fun _ _ => canSend_of_abortTask
  notice := fun _ => .inl

theorem narrows_closeSession (hid : session.sessionId = id) :
    Narrows s (s.closeSession id session) where
  session := by
    intro other found hfound
    rcases PartialMap.get_of_get_insert hfound with ⟨rfl, rfl⟩ | ⟨_, hold⟩
    · exact ⟨hid, .inr ⟨rfl, rfl⟩⟩
    · exact ⟨h.key other found hold, .inl ⟨found, hold, rfl, rfl⟩⟩
  task := fun _ _ => canSend_of_abortTask
  notice := fun _ => .inl

theorem narrows_insert (serverLoop : ServerLoop) (hid : session.sessionId = id)
    (hsocket : (∃ old, s.sessions.get id = some old ∧ session.receiveTask = old.receiveTask ∧
      session.socket = old.socket) ∨ session.receiveTask = none ∧ session.socket = none) :
    Narrows s { s with sessions := s.sessions.insert id session, serverLoop } where
  session := by
    intro other found hfound
    rcases PartialMap.get_of_get_insert hfound with ⟨rfl, rfl⟩ | ⟨_, hold⟩
    · exact ⟨hid, hsocket⟩
    · exact ⟨h.key other found hold, .inl ⟨found, hold, rfl, rfl⟩⟩
  task := fun _ task htask hsend => ⟨task, htask, rfl, hsend⟩
  notice := fun _ => .inl

theorem narrows_task {n : Nat} {task after : ReceiveTask} (htask : s.tasks[n]? = some task)
    (hid : after.sessionId = task.sessionId) (hsend : task.CanSend) :
    Narrows s { s with tasks := s.tasks.set n after } where
  session := fun other found hfound => ⟨h.key other found hfound, .inl ⟨found, hfound, rfl, rfl⟩⟩
  task := by
    intro m new hm hnew
    rcases of_getElem?_set hm with ⟨rfl, rfl⟩ | ⟨_, hold⟩
    · exact ⟨task, htask, hid.symm, hsend⟩
    · exact ⟨new, hold, rfl, hnew⟩
  notice := fun _ => .inl

theorem narrows_endTask {n : Nat} {task after : ReceiveTask} (htask : s.tasks[n]? = some task)
    (hid : after.sessionId = task.sessionId) (hsend : task.CanSend) :
    Narrows s { s with
      tasks := s.tasks.set n after
      closeRx := s.closeRx ++ [⟨task.sessionId, n⟩] } where
  session := (narrows_task h htask hid hsend).session
  task := (narrows_task h htask hid hsend).task
  notice := by
    intro notice hnotice
    rcases List.mem_append.mp hnotice with hold | hnew
    · exact .inl hold
    · obtain rfl := List.mem_singleton.mp hnew
      exact .inr ⟨task, htask, rfl, hsend⟩

theorem narrows_recv {notice : CloseNotice} {rest : List CloseNotice}
    (hrx : s.closeRx = notice :: rest) : Narrows s { s with closeRx := rest } where
  session := fun other found hfound => ⟨h.key other found hfound, .inl ⟨found, hfound, rfl, rfl⟩⟩
  task := fun _ task htask hsend => ⟨task, htask, rfl, hsend⟩
  notice := by
    intro other hother
    rw [hrx]
    exact .inl (List.mem_cons_of_mem _ hother)

theorem feedMessage_fresh {profile : Profile} {message : UDPMessage} {now : Nat}
    {socketOpens : Bool} {after : ServerUdp}
    (hfeed : s.feedMessage profile message now socketOpens = some after)
    (hquiet : (∀ session, s.sessions.get message.sessionId = some session → session.socket = none) →
      s.Unreported message.sessionId) : after.Fresh := by
  unfold feedMessage at hfeed
  dsimp only at hfeed
  generalize hbase : (s.sessions.get message.sessionId).getD (.new message.sessionId now) = base
    at hfeed
  have hid : base.sessionId = message.sessionId := by
    cases hget : s.sessions.get message.sessionId with
    | some old =>
      rw [← hbase, hget]
      exact h.key _ old hget
    | none =>
      rw [← hbase, hget]
      rfl
  have hsocket : (∃ old, s.sessions.get message.sessionId = some old ∧
      base.receiveTask = old.receiveTask ∧ base.socket = old.socket) ∨
      base.receiveTask = none ∧ base.socket = none := by
    cases hget : s.sessions.get message.sessionId with
    | some old =>
      rw [← hbase, hget]
      exact .inl ⟨old, rfl, rfl, rfl⟩
    | none =>
      rw [← hbase, hget]
      exact .inr ⟨rfl, rfl⟩
  split at hfeed
  · cases hfeed
    exact h.narrow (narrows_insert h s.serverLoop hid hsocket)
  · next result defragger _ =>
    have hstored : { s with
        sessions := s.sessions.insert message.sessionId
          { base with defragger, lastActivity := now }
        serverLoop := .feeding message.sessionId result }.Fresh :=
      h.narrow (narrows_insert h _ hid hsocket)
    split at hfeed
    · cases hfeed
      exact hstored
    · next hnone =>
      split at hfeed
      · cases hfeed
        refine hstored.openSocket ?_ (hquiet ?_)
        · exact hid
        intro session hget
        rw [hget] at hbase
        cases hbase
        exact hnone
      · cases hfeed
        exact hstored.narrow (narrows_closeSession hstored hid)
  · cases hfeed

end

/-- A datagram for a session id without an open socket arrives only when the end of
an earlier socket under that id cannot be reported any more. -/
def Quiet (s : ServerUdp) (event : Event) : Prop :=
  ∀ message now socketOpens, event = .datagram message now socketOpens →
    (∀ session, s.sessions.get message.sessionId = some session → session.socket = none) →
    s.Unreported message.sessionId

theorem step_fresh {profile : Profile} {timeout : Nat} {s after : ServerUdp} {event : Event}
    (h : s.Fresh) (hstep : step profile timeout s event = some after) (hquiet : s.Quiet event) :
    after.Fresh := by
  cases step_cases hstep with
  | expired _ => exact h.narrow (narrows_removeSession h _ _)
  | @noticed notice rest session hrx _ =>
    have hremoved := h.narrow (narrows_removeSession h notice.sessionId session)
    exact hremoved.narrow (narrows_recv hremoved hrx)
  | ignored hrx => exact h.narrow (narrows_recv h hrx)
  | @fed message now socketOpens _ hfeed => exact feedMessage_fresh h hfeed (hquiet message now socketOpens rfl)
  | @sent sessionId message session resolved _ _ hget hresolve =>
    obtain ⟨hid, htask, hsocket⟩ := ServerUdpSession.resolve_eq hresolve
    have hid := hid.trans (h.key _ session hget)
    exact h.narrow (narrows_insert h _ hid (.inl ⟨session, hget, htask, hsocket⟩))
  | @unsent sessionId message session resolved _ _ hget hresolve =>
    obtain ⟨hid, -, -⟩ := ServerUdpSession.resolve_eq hresolve
    exact h.narrow (narrows_closeSession h (hid.trans (h.key _ session hget)))
  | unresolved _ hget => exact h.narrow (narrows_closeSession h (h.key _ _ hget))
  | lost => exact ⟨h.key, h.paired, h.owned⟩
  | left _ => exact h.narrow (narrows_removeSession h _ _)
  | polled htask => exact h.narrow (narrows_task h htask rfl (.inr ⟨rfl, rfl⟩))
  | yielded htask => exact h.narrow (narrows_task h htask rfl (.inl rfl))
  | ended htask => exact h.narrow (narrows_endTask h htask rfl (.inl rfl))

/-- The step at which the loop reads a close notification closes no socket but that of
the task that sent it. -/
def ClosesOwn (s : ServerUdp) (event : Event) : Prop :=
  ∀ notice rest session n, event = .closeNotice → s.closeRx = notice :: rest →
    s.sessions.get notice.sessionId = some session → session.receiveTask = some n →
    n = notice.sender

/-- Along every run in which session ids are reused quietly, each close notification
closes the session incarnation whose own receive task sent it and no other. -/
theorem notice_closes_own (profile : Profile) (timeout : Nat) (events : List Event)
    (hquiet : Along (step profile timeout) (fun s event _ => s.Quiet event) new events) :
    Along (step profile timeout) (fun s event _ => s.ClosesOwn event) new events := by
  refine along_of_inv (I := Fresh) ?_ new_fresh hquiet
  intro s event after h hstep hquiet
  refine ⟨step_fresh h hstep hquiet, ?_⟩
  intro notice rest session n _ hrx hget hn
  have howned := h.owned notice.sessionId session n hget hn
  exact (howned.1 notice (by rw [hrx]; exact List.mem_cons_self) rfl).symm

def hello : UDPMessage := ⟨5, 0, 0, 1, "a:1", [1]⟩

def reusedQuietly : List Event :=
  [.datagram hello 0 true, .sendPacket true true, .pollTask 0, .endTask 0, .closeNotice,
    .datagram hello 1 true]

theorem notice_closes_own_reused :
    (run (step ⟨true⟩ 60) new reusedQuietly).isSome ∧
      Along (step ⟨true⟩ 60) (fun s event _ => s.ClosesOwn event) new reusedQuietly := by
  refine ⟨rfl, notice_closes_own ⟨true⟩ 60 reusedQuietly ?_⟩
  rintro _ ⟨⟩
  refine ⟨?_, ?_⟩
  · rintro message now opens ⟨⟩ _
    exact ⟨by simp [new], by simp [new]⟩
  rintro _ ⟨⟩
  refine ⟨nofun, ?_⟩
  rintro _ ⟨⟩
  refine ⟨nofun, ?_⟩
  rintro _ ⟨⟩
  refine ⟨nofun, ?_⟩
  rintro _ ⟨⟩
  refine ⟨nofun, ?_⟩
  rintro _ ⟨⟩
  refine ⟨?_, trivial⟩
  rintro message now opens ⟨⟩ _
  refine ⟨nofun, ?_⟩
  -- The only task so far has finished.
  rintro (_ | m) task ⟨⟩ _ (hpolling | ⟨hidle, _⟩)
  · cases hpolling
  · cases hidle

/-- The receive task of a session ends and reports it, a packet cannot be sent, which
closes the session, and the next datagram opens it again: the report then closes the
new socket. -/
theorem stale_notice_closes_other :
    ∃ s session, run (step ⟨true⟩ 60) new
        [.datagram hello 0 true, .pollTask 0, .endTask 0, .sendPacket true false,
          .datagram hello 1 true, .sendPacket true true] = some s ∧
      s.closeRx = [⟨5, 0⟩] ∧ s.sessions.get 5 = some session ∧ session.receiveTask = some 1 ∧
      (step ⟨true⟩ 60 s .closeNotice).map (fun s => (s.sessions.get 5).isNone) = some true :=
  ⟨_, _, rfl, rfl, rfl, rfl, rfl⟩

end ServerUdp
end Hysteria.Core
