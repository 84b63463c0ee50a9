import Hysteria.Core.ClientTunnel
import Hysteria.Core.ClientUdpIsolation

/-! The handles of one `UdpSession`. A handle can be cloned, and all of them share the session;
the drop of any of them closes it. -/
namespace Hysteria.Core
open Lib

theorem receiveLoop_waits {profile : Profile} {defragger after : Defragger} {queue rest : List UDPMessage}
    {outcome : ReceiveOutcome}
    (h : (receiveLoop profile true defragger queue : Exec Empty _) = .ok (outcome, after, rest))
    (error : CoreError) : outcome ≠ .failed error := by
  induction queue generalizing defragger with
  | nil =>
    cases h
    exact ReceiveOutcome.noConfusion
  | cons message queue ih =>
    obtain ⟨⟨out, defragger'⟩, -, h⟩ := bind_eq_ok.mp h
    cases out with
    | some message =>
      cases h
      exact ReceiveOutcome.noConfusion
    | none => exact ih h

theorem UdpSession.receive_waits {profile : Profile} {session after : UdpSession} {outcome : ReceiveOutcome}
    (h : (session.receive profile true : Exec Empty _) = .ok (outcome, after)) (error : CoreError) :
    outcome ≠ .failed error := by
  obtain ⟨⟨outcome', defragger, queue⟩, hloop, h⟩ := bind_eq_ok.mp h
  cases h
  exact receiveLoop_waits hloop error

namespace ClientUdpManager

def Filed (m : ClientUdpManager) : Prop :=
  ∀ id i, m.sessions.get id = some i → ∃ session, m.returned[i]? = some session ∧ session.sessionId = id

def Gone (m : ClientUdpManager) (i : Nat) : Prop := i < m.returned.length ∧ ∀ id, m.sessions.get id ≠ some i

theorem new_filed : new.Filed := by simp [Filed, new]

theorem Filed.set {m after : ClientUdpManager} (h : m.Filed) {i : Nat} {session new : UdpSession}
    (hsession : m.returned[i]? = some session) (hreturned : after.returned = m.returned.set i new)
    (hid : new.sessionId = session.sessionId) (hsessions : after.sessions = m.sessions) : after.Filed := by
  intro id j hget
  rw [hsessions] at hget
  rw [hreturned]
  obtain ⟨old, hold, hkey⟩ := h id j hget
  by_cases hij : i = j
  · subst hij
    rw [hsession] at hold
    cases hold
    exact ⟨new, List.getElem?_set_self (List.getElem?_eq_some_iff.mp hsession).1, hid.trans hkey⟩
  · exact ⟨old, by rw [List.getElem?_set_ne hij, hold], hkey⟩

theorem step_filed {profile : Profile} {m after : ClientUdpManager} {event : Event} (h : m.Filed)
    (hstep : step profile m event = some after) : after.Filed := by
  cases step_cases hstep with
  | refused | checked | fetchAdd | skipped | picked | discarded | stored => exact h
  | insert hcall =>
    intro id i hget
    rcases PartialMap.get_of_get_insert hget with ⟨rfl, rfl⟩ | ⟨-, hget⟩
    · exact ⟨_, List.getElem?_concat_length, rfl⟩
    · obtain ⟨session, hsession, hid⟩ := h id i hget
      exact ⟨session, List.getElem?_append_left (List.getElem?_eq_some_iff.mp hsession).1 ▸ hsession, hid⟩
  | queued hreader hsession hdropped hroom => exact h.set hsession rfl rfl rfl
  | cleared => simp [Filed]
  | received hsession hreceive => exact h.set hsession rfl (by rw [(UdpSession.received_of_receive hreceive).eq]) rfl
  | swapped hsession => exact h.set hsession rfl rfl rfl
  | removed hremoval => exact fun id i hget => h id i (PartialMap.get_of_get_remove hget).2
  | dropped hsession hclosed => exact h.set hsession rfl rfl rfl

theorem step_gone {profile : Profile} {m after : ClientUdpManager} {event : Event} {i : Nat} (h : m.Gone i)
    (hstep : step profile m event = some after) : after.Gone i := by
  obtain ⟨hlt, hget⟩ := h
  cases step_cases hstep with
  | refused | checked | fetchAdd | skipped | picked | discarded | stored => exact ⟨hlt, hget⟩
  | insert hcall =>
    refine ⟨by rw [List.length_append]; omega, ?_⟩
    intro id hid
    rcases PartialMap.get_of_get_insert hid with ⟨-, rfl⟩ | ⟨-, hid⟩
    · exact Nat.lt_irrefl _ hlt
    · exact hget id hid
  | cleared => exact ⟨hlt, by simp⟩
  | removed hremoval => exact ⟨hlt, fun id hid => hget id (PartialMap.get_of_get_remove hid).2⟩
  | queued | received | swapped | dropped => exact ⟨by rw [List.length_set]; exact hlt, hget⟩

def Open (m : ClientUdpManager) (i : Nat) : Prop :=
  ∃ session, m.returned[i]? = some session ∧ session.closed = false ∧ m.sessions.get session.sessionId = some i

def Shut (m : ClientUdpManager) (i : Nat) : Prop :=
  (∃ session, m.returned[i]? = some session ∧ session.closed = true) ∧ m.Gone i

def Event.isQuiet : Event → Bool
  | .receive _ | .datagram _ | .forward => true
  | _ => false

theorem step_quiet {profile : Profile} {m after : ClientUdpManager} {event : Event}
    (hstep : step profile m event = some after) (hquiet : event.isQuiet) :
    after.sessions = m.sessions ∧ ∀ (i : Nat) (session : UdpSession), m.returned[i]? = some session →
      ∃ session' : UdpSession, after.returned[i]? = some session' ∧ session'.sessionId = session.sessionId ∧
        session'.closed = session.closed := by
  have hset : ∀ {j : Nat} {old new : UdpSession}, m.returned[j]? = some old → new.sessionId = old.sessionId →
      new.closed = old.closed → ∀ (i : Nat) (session : UdpSession), m.returned[i]? = some session →
        ∃ session' : UdpSession, (m.returned.set j new)[i]? = some session' ∧ session'.sessionId = session.sessionId ∧
          session'.closed = session.closed := by
    intro j old new hold hid hclosed i session hsession
    by_cases hij : j = i
    · subst hij
      rw [hsession] at hold
      cases hold
      exact ⟨new, List.getElem?_set_self (List.getElem?_eq_some_iff.mp hsession).1, hid, hclosed⟩
    · exact ⟨session, by rw [List.getElem?_set_ne hij, hsession], rfl, rfl⟩
  cases step_cases hstep with
  | refused | checked | fetchAdd | insert | stored | cleared | swapped | removed | dropped => cases hquiet
  | skipped | picked | discarded => exact ⟨rfl, fun i session hsession => ⟨session, hsession, rfl, rfl⟩⟩
  | queued hreader hsession hdropped hroom => exact ⟨rfl, hset hsession rfl rfl⟩
  | received hsession hreceive =>
    have heq := (UdpSession.received_of_receive hreceive).eq
    exact ⟨rfl, hset hsession (by rw [heq]) (by rw [heq])⟩

section
variable {profile : Profile} {m after : ClientUdpManager} {event : Event} {i : Nat}

theorem Open.quiet (h : m.Open i) (hstep : step profile m event = some after) (hquiet : event.isQuiet) :
    after.Open i := by
  obtain ⟨session, hsession, hopen, hregistered⟩ := h
  obtain ⟨hsessions, hkept⟩ := step_quiet hstep hquiet
  obtain ⟨session', hsession', hid, hclosed⟩ := hkept i session hsession
  exact ⟨session', hsession', hclosed.trans hopen, by rw [hid, hsessions, hregistered]⟩

theorem Shut.quiet (h : m.Shut i) (hstep : step profile m event = some after) (hquiet : event.isQuiet) :
    after.Shut i := by
  obtain ⟨⟨session, hsession, hclosed⟩, hgone⟩ := h
  obtain ⟨session', hsession', -, hclosed'⟩ := (step_quiet hstep hquiet).2 i session hsession
  exact ⟨⟨session', hsession', hclosed'.trans hclosed⟩, step_gone hgone hstep⟩

end

/-- The session is registered, a send is not refused and `receive` waits for messages. -/
def Usable (profile : Profile) (m : ClientUdpManager) (i : Nat) : Prop :=
  ∃ session, m.returned[i]? = some session ∧ m.sessions.get session.sessionId = some i ∧
    (∀ link data addr, link.closed = session.closed →
      UdpSession.send profile link session.sessionId data addr ≠ .error (.error (.closed "udp session closed"))) ∧
    ∀ outcome after error, (session.receive profile (m.senderAlive i session) : Exec Empty _) = .ok (outcome, after) →
      outcome ≠ .failed error

theorem Open.usable {m : ClientUdpManager} {i : Nat} (h : m.Open i) (profile : Profile) : m.Usable profile i := by
  obtain ⟨session, hsession, hopen, hregistered⟩ := h
  refine ⟨session, hsession, hregistered, ?_, ?_⟩
  · intro link data addr hlink hsend
    rw [UdpSession.send, hlink, hopen] at hsend
    rcases sendUdpMessage_cases profile link ⟨session.sessionId, 0, 0, 1, addr, data⟩ with
      ⟨-, text, hfails⟩ | ⟨-, why, hfails⟩ | ⟨-, hfails⟩
    all_goals cases hsend.symm.trans hfails
  · intro outcome after error hreceive
    have halive : m.senderAlive i session = true := by
      rw [senderAlive, hregistered]
      simp
    rw [halive] at hreceive
    exact UdpSession.receive_waits hreceive error

theorem Gone.not_usable {m : ClientUdpManager} {i : Nat} (h : m.Gone i) (profile : Profile) :
    ¬ m.Usable profile i := by
  rintro ⟨session, -, hregistered, -⟩
  exact h.2 _ hregistered

end ClientUdpManager

open ClientUdpManager

inductive HandleOp where
  | clone
  | drop
  | send
  | receive
  | close
  | datagram (bytes : List UInt8)
  | forward
deriving DecidableEq, Repr

/-- A session with the number of its handles. That `close` was called is kept for what is
said about it. -/
structure Handles where
  manager : ClientUdpManager
  handles : Nat
  closeCalled : Bool

namespace Handles

def closeInner (profile : Profile) (i : Nat) (session : UdpSession) (m : ClientUdpManager) :
    Option ClientUdpManager :=
  run (ClientUdpManager.step profile) m
    (.swapClosed i :: if session.closed then [] else [.removeSession session.sessionId])

/-- One operation on a handle of session `i`. Each drop closes the session, and the last one
drops it too. -/
def step (profile : Profile) (i : Nat) (s : Handles) (op : HandleOp) : Option Handles :=
  match s.handles, s.manager.returned[i]? with
  | others + 1, some session =>
    match op with
    | .clone => some { s with handles := others + 2 }
    | .drop => do
      let manager ← closeInner profile i session s.manager
      let manager ← run (ClientUdpManager.step profile) manager (if others = 0 then [.dropLast i] else [])
      return { s with manager, handles := others }
    | .send => some s
    | .receive => (s.manager.step profile (.receive i)).map fun manager => { s with manager }
    | .close => (closeInner profile i session s.manager).map fun manager =>
        { s with manager, closeCalled := true }
    | .datagram bytes => (s.manager.step profile (.datagram bytes)).map fun manager => { s with manager }
    | .forward => (s.manager.step profile .forward).map fun manager => { s with manager }
  | _, _ => none

/-- The session can be used until `close` is called or the last handle is dropped, and is not
registered from then on. -/
structure Lawful (profile : Profile) (i : Nat) (s : Handles) : Prop where
  usable : s.handles ≠ 0 → s.closeCalled = false → s.manager.Usable profile i
  gone : s.handles = 0 ∨ s.closeCalled = true → s.manager.Gone i

/-- The drop of a handle is that of the last one, or `close` was called before. -/
def DropsLast (s : Handles) (op : HandleOp) : Prop := op = .drop → s.closeCalled = true ∨ s.handles = 1

theorem closeInner_eq (profile : Profile) {m : ClientUdpManager} {i : Nat} {session : UdpSession}
    (hsession : m.returned[i]? = some session) :
    closeInner profile i session m = some { m with
      returned := m.returned.set i { session with closed := true }
      sessions := if session.closed then m.sessions else m.sessions.remove session.sessionId } := by
  unfold closeInner
  cases hclosed : session.closed <;> simp [run, ClientUdpManager.step, hsession, hclosed]

theorem closeInner_shut (profile : Profile) {m : ClientUdpManager} {i : Nat} {session : UdpSession}
    (hfiled : m.Filed) (hsession : m.returned[i]? = some session) (hstate : m.Open i ∨ m.Shut i) :
    ∃ after, closeInner profile i session m = some after ∧ after.Filed ∧ after.Shut i := by
  have hlt := (List.getElem?_eq_some_iff.mp hsession).1
  have hclose := closeInner_eq profile hsession
  refine ⟨_, hclose, run_induction (fun _ _ _ h hstep => step_filed h hstep) hfiled hclose, ?_, ?_, ?_⟩
  · exact ⟨_, List.getElem?_set_self hlt, rfl⟩
  · rw [List.length_set]
    exact hlt
  · intro id hget
    dsimp only at hget
    split at hget
    case isTrue hclosed =>
      rcases hstate with ⟨other, hother, hopen, -⟩ | ⟨-, hgone⟩
      · rw [hsession] at hother
        cases hother
        rw [hopen] at hclosed
        cases hclosed
      · exact hgone.2 id hget
    case isFalse =>
      obtain ⟨hne, hget⟩ := PartialMap.get_of_get_remove hget
      obtain ⟨other, hother, hid⟩ := hfiled id i hget
      rw [hsession] at hother
      cases hother
      exact hne hid.symm

theorem dropLast_shut (profile : Profile) {m : ClientUdpManager} {i : Nat} (hfiled : m.Filed) (hshut : m.Shut i)
    (others : Nat) :
    ∃ after, run (ClientUdpManager.step profile) m (if others = 0 then [.dropLast i] else []) = some after ∧
      after.Filed ∧ after.Shut i := by
  by_cases hlast : others = 0
  case neg =>
    rw [if_neg hlast]
    exact ⟨m, rfl, hfiled, hshut⟩
  case pos =>
    obtain ⟨⟨session, hsession, hclosed⟩, hgone⟩ := hshut
    have hstep : m.step profile (.dropLast i) =
        some { m with returned := m.returned.set i { session with dropped := true } } := by
      simp only [ClientUdpManager.step, hsession, hclosed, if_true]
    rw [if_pos hlast]
    refine ⟨_, run_cons.mpr ⟨_, hstep, rfl⟩, step_filed hfiled hstep, ?_, step_gone hgone hstep⟩
    exact ⟨_, List.getElem?_set_self (List.getElem?_eq_some_iff.mp hsession).1, hclosed⟩

structure Inv (i : Nat) (s : Handles) : Prop where
  filed : s.manager.Filed
  state : s.manager.Open i ∧ s.handles ≠ 0 ∧ s.closeCalled = false ∨ s.manager.Shut i

section
variable {profile : Profile} {i : Nat} {s after : Handles} {op : HandleOp}

theorem lawful_of_shut (h : s.manager.Shut i) : s.Lawful profile i ↔ s.handles = 0 ∨ s.closeCalled = true := by
  constructor
  · intro hlawful
    by_contra hleft
    rw [not_or, Bool.not_eq_true] at hleft
    exact h.2.not_usable profile (hlawful.usable hleft.1 hleft.2)
  · intro hover
    refine ⟨fun hhandles hclose => ?_, fun _ => h.2⟩
    rcases hover with hover | hover
    · exact absurd hover hhandles
    · rw [hclose] at hover
      cases hover

inductive Effect (i : Nat) (s after : Handles) : HandleOp → Prop where
  | dropped : after.manager.Shut i → s.handles = after.handles + 1 → after.closeCalled = s.closeCalled →
      Effect i s after .drop
  | closed : after.manager.Shut i → after.closeCalled = true → Effect i s after .close
  | kept {op : HandleOp} : op ≠ .drop → (s.manager.Open i → after.manager.Open i) →
      (s.manager.Shut i → after.manager.Shut i) → s.handles ≠ 0 → after.handles ≠ 0 →
      after.closeCalled = s.closeCalled → Effect i s after op

theorem step_effect (h : s.Inv i) (hstep : step profile i s op = some after) :
    after.manager.Filed ∧ Effect i s after op := by
  have hstate : s.manager.Open i ∨ s.manager.Shut i := h.state.imp_left And.left
  unfold step at hstep
  split at hstep
  case h_2 => cases hstep
  case h_1 others session hhandles hsession =>
  have hquiet : ∀ {event : Event}, event.isQuiet → op ≠ .drop →
      (s.manager.step profile event).map (fun manager => { s with manager }) = some after →
      after.manager.Filed ∧ Effect i s after op := by
    intro event hquiet hop hmap
    obtain ⟨manager, hevent, rfl⟩ := Option.map_eq_some_iff.mp hmap
    exact ⟨step_filed h.filed hevent, .kept hop (·.quiet hevent hquiet) (·.quiet hevent hquiet)
      (by omega) (by dsimp only; omega) rfl⟩
  cases op with
  | clone =>
    cases hstep
    exact ⟨h.filed, .kept (by decide) id id (by omega) (by dsimp only; omega) rfl⟩
  | send =>
    cases hstep
    exact ⟨h.filed, .kept (by decide) id id (by omega) (by omega) rfl⟩
  | receive | datagram bytes | forward => exact hquiet rfl (by simp) hstep
  | close =>
    obtain ⟨manager, hclose, hfiled, hshut⟩ := closeInner_shut profile h.filed hsession hstate
    simp only [hclose] at hstep
    cases hstep
    exact ⟨hfiled, .closed hshut rfl⟩
  | drop =>
    obtain ⟨manager, hclose, hfiled, hshut⟩ := closeInner_shut profile h.filed hsession hstate
    obtain ⟨last, hlast, hfiled, hshut⟩ := dropLast_shut profile hfiled hshut others
    simp only [hclose, hlast, bind, Option.bind] at hstep
    cases hstep
    exact ⟨hfiled, .dropped hshut hhandles rfl⟩

theorem step_lawful (h : s.Inv i) (hstep : step profile i s op = some after) :
    after.Inv i ∧ (s.Lawful profile i → (after.Lawful profile i ↔ s.DropsLast op)) := by
  obtain ⟨hfiled, heffect⟩ := step_effect h hstep
  cases heffect with
  | dropped hshut hhandles hcalled =>
    refine ⟨⟨hfiled, .inr hshut⟩, fun _ => ?_⟩
    rw [lawful_of_shut hshut, DropsLast, hcalled, or_comm]
    have hlast : after.handles = 0 ↔ s.handles = 1 := by omega
    simp [hlast]
  | closed hshut hcalled =>
    refine ⟨⟨hfiled, .inr hshut⟩, fun _ => ?_⟩
    rw [lawful_of_shut hshut]
    simp [DropsLast, hcalled]
  | kept hop hopen hshut hhandles hleft hcalled =>
    have hdrops : s.DropsLast op := fun heq => absurd heq hop
    rcases h.state with ⟨hstate, -, hnot⟩ | hstate
    · have hcalled : after.closeCalled = false := hcalled.trans hnot
      refine ⟨⟨hfiled, .inl ⟨hopen hstate, hleft, hcalled⟩⟩, fun _ => iff_of_true ⟨?_, ?_⟩ hdrops⟩
      · exact fun _ _ => (hopen hstate).usable profile
      · rintro (hnone | hcall)
        · exact absurd hnone hleft
        · rw [hcalled] at hcall
          cases hcall
    · refine ⟨⟨hfiled, .inr (hshut hstate)⟩, fun hlawful => iff_of_true ?_ hdrops⟩
      rw [lawful_of_shut (hshut hstate), hcalled]
      exact ((lawful_of_shut hstate).mp hlawful).imp_left fun hnone => absurd hnone hhandles

end

/-- Along every sequence of operations the session can be used until `close` is called or the
last handle is dropped, exactly if no handle is dropped before that while others are left.
Whatever happens to the manager afterwards, the session is not registered again. -/
theorem lawful_iff {profile : Profile} {events : List Event} {m : ClientUdpManager}
    (hrun : run (ClientUdpManager.step profile) .new events = some m) {i : Nat} (hopen : m.Open i)
    (ops : List HandleOp) :
    (Along (step profile i) (fun _ _ after => after.Lawful profile i) ⟨m, 1, false⟩ ops ↔
      Along (step profile i) (fun s op _ => s.DropsLast op) ⟨m, 1, false⟩ ops) ∧
    ∀ s, run (step profile i) ⟨m, 1, false⟩ ops = some s → s.handles = 0 ∨ s.closeCalled = true →
      ∀ later m', run (ClientUdpManager.step profile) s.manager later = some m' →
        ∀ id, m'.sessions.get id ≠ some i := by
  have hfiled : m.Filed := run_induction (fun _ _ _ h hstep => step_filed h hstep) new_filed hrun
  have hinv : Inv i ⟨m, 1, false⟩ := ⟨hfiled, .inl ⟨hopen, Nat.one_ne_zero, rfl⟩⟩
  have hlawful : Lawful profile i ⟨m, 1, false⟩ := by
    refine ⟨fun _ _ => hopen.usable profile, ?_⟩
    rintro (hnone | hcalled)
    · cases hnone
    · cases hcalled
  refine ⟨along_iff (fun s op after h hstep => step_lawful h hstep) hinv hlawful, ?_⟩
  intro s hops hover later m' hlater
  have hinv : s.Inv i := run_induction (fun _ _ _ h hstep => (step_lawful h hstep).1) hinv hops
  have hgone : s.manager.Gone i := by
    rcases hinv.state with ⟨-, hleft, hnot⟩ | hshut
    · rcases hover with hnone | hcalled
      · exact absurd hnone hleft
      · rw [hnot] at hcalled
        cases hcalled
    · exact hshut.2
  exact (run_induction (fun _ _ _ h hstep => step_gone h hstep) hgone hlater).2

def opened : List Event := [.load 0 2, .fetchAdd 0, .insert 0]

def closedFirst : List HandleOp := [.clone, .send, .receive, .close, .drop, .drop]

theorem lawful_closedFirst :
    ∃ m, run (ClientUdpManager.step ⟨true⟩) .new opened = some m ∧
      (run (step ⟨true⟩ 0) ⟨m, 1, false⟩ closedFirst).isSome ∧
      Along (step ⟨true⟩ 0) (fun _ _ after => after.Lawful ⟨true⟩ 0) ⟨m, 1, false⟩ closedFirst := by
  refine ⟨_, rfl, rfl, ?_⟩
  refine (@lawful_iff ⟨true⟩ opened _ rfl 0 ⟨_, rfl, rfl, rfl⟩ closedFirst).1.mpr ?_
  have hother : ∀ {s : Handles} {op : HandleOp}, op ≠ .drop → s.DropsLast op := fun hop heq => absurd heq hop
  rintro _ ⟨⟩
  refine ⟨hother (by decide), ?_⟩
  rintro _ ⟨⟩
  refine ⟨hother (by decide), ?_⟩
  rintro _ ⟨⟩
  refine ⟨hother (by decide), ?_⟩
  rintro _ ⟨⟩
  refine ⟨hother (by decide), ?_⟩
  rintro _ ⟨⟩
  refine ⟨fun _ => .inl rfl, ?_⟩
  rintro _ ⟨⟩
  exact ⟨fun _ => .inl rfl, trivial⟩

/-- The task that holds a clone ends: the handle that is left cannot be used any more. -/
theorem drop_clone_closes :
    ∃ m s session, run (ClientUdpManager.step ⟨true⟩) .new opened = some m ∧ m.Open 0 ∧
      run (step ⟨true⟩ 0) ⟨m, 1, false⟩ [.clone, .drop] = some s ∧ s.handles = 1 ∧ s.closeCalled = false ∧
      s.manager.returned[0]? = some session ∧ s.manager.sessions.get session.sessionId = none ∧
      session.closed = true ∧
      (session.receive ⟨true⟩ (s.manager.senderAlive 0 session) : Exec Empty _) =
        .ok (.failed (.closed "udp session closed"), session) ∧
      ∀ link data addr, link.closed = session.closed → UdpSession.send ⟨true⟩ link session.sessionId data addr =
        .error (.error (.closed "udp session closed")) := by
  refine ⟨_, _, _, rfl, ⟨_, rfl, rfl, rfl⟩, rfl, rfl, rfl, rfl, rfl, rfl, rfl, ?_⟩
  intro link data addr hlink
  rw [UdpSession.send, hlink]
  rfl

end Handles
end Hysteria.Core
