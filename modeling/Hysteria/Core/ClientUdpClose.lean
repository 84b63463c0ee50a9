import Hysteria.Core.ClientUdp

/-! The end of the client's UDP manager: what `close_all` leaves behind, and whether
those who wait in `receive` learn of it. -/
namespace Hysteria.Core
open Lib

theorem receiveLoop_spec (profile : Profile) (senderAlive : Bool) {d : Defragger} (hinv : d.Inv)
    (queue : List UDPMessage) :
    ∃ outcome after rest,
      (receiveLoop profile senderAlive d queue : Exec ε _) = .ok (outcome, after, rest) ∧
      after.Inv ∧
      ((∃ data addr, outcome = .received data addr ∧ rest.length < queue.length) ∨
        outcome = (if senderAlive then .waiting else .failed (.closed "udp session closed")) ∧
          rest = []) := by
  induction queue generalizing d with
  | nil => exact ⟨_, d, [], rfl, hinv, .inr ⟨rfl, rfl⟩⟩
  | cons message queue ih =>
    obtain ⟨out, after, hfeed, hstep⟩ := Defragger.feed_step (ε := ε) hinv profile message
    have hafter := hstep.inv hinv
    cases out with
    | some result =>
      refine ⟨.received result.data result.addr, after, queue, ?_, hafter, ?_⟩
      · rw [receiveLoop, hfeed]
        rfl
      · exact .inl ⟨_, _, rfl, Nat.lt_succ_self _⟩
    | none =>
      obtain ⟨outcome, last, rest, hloop, hlast, hcases⟩ := ih hafter
      refine ⟨outcome, last, rest, ?_, hlast, ?_⟩
      · rw [receiveLoop, hfeed]
        exact hloop
      · apply hcases.imp_left
        rintro ⟨data, addr, houtcome, hlt⟩
        exact ⟨data, addr, houtcome, Nat.lt_succ_of_lt hlt⟩

theorem UdpSession.receive_spec (profile : Profile) (senderAlive : Bool) {session : UdpSession}
    (hinv : session.defragger.Inv) :
    ∃ outcome after, (session.receive profile senderAlive : Exec ε _) = .ok (outcome, after) ∧
      after.defragger.Inv ∧
      ((∃ data addr, outcome = .received data addr ∧ after.queue.length < session.queue.length) ∨
        outcome = (if senderAlive then .waiting else .failed (.closed "udp session closed"))) := by
  obtain ⟨outcome, defragger, queue, hloop, hdefragger, hcases⟩ :=
    receiveLoop_spec (ε := ε) profile senderAlive hinv session.queue
  refine ⟨outcome, { session with defragger, queue }, ?_, hdefragger, ?_⟩
  · rw [receive, hloop]
    rfl
  · exact hcases.imp_right And.left

/-- The messages still in the channel are received, and the call after them fails. -/
def UdpSession.EndsClosed (profile : Profile) (senderAlive : Bool) (session : UdpSession) : Prop :=
  ∃ (messages : List (List UInt8 × String)) (after : UdpSession),
    (session.receiveTimes profile senderAlive (messages.length + 1) : Exec Empty _) =
      .ok (messages.map (fun message => .received message.1 message.2) ++
        [.failed (.closed "udp session closed")], after)

theorem UdpSession.endsClosed (profile : Profile) {session : UdpSession}
    (hinv : session.defragger.Inv) : session.EndsClosed profile false := by
  induction hn : session.queue.length using Nat.strongRecOn generalizing session with
  | _ n ih =>
    obtain ⟨outcome, after, hreceive, hafter, hcases⟩ :=
      session.receive_spec (ε := Empty) profile false hinv
    rcases hcases with ⟨data, addr, rfl, hlt⟩ | rfl
    · obtain ⟨messages, last, htimes⟩ := ih _ (hn ▸ hlt) hafter rfl
      refine ⟨(data, addr) :: messages, last, ?_⟩
      rw [List.length_cons, receiveTimes, hreceive, ok_bind]
      dsimp only
      rw [htimes]
      rfl
    · refine ⟨[], after, ?_⟩
      rw [List.length_nil, receiveTimes, hreceive]
      rfl

namespace ClientUdpManager

/-- What holds along every run in which no call of `new_udp` is under way when the
map is cleared: from then on nothing is inserted. -/
structure Closing (m : ClientUdpManager) : Prop where
  stored : m.reader = .stored → m.closed = true
  finished : m.reader = .finished →
    m.closed = true ∧ (∀ call, m.calls.get call = none) ∧ m.sessions = .empty
  defragger : ∀ session ∈ m.returned, session.defragger.Inv

theorem new_closing : new.Closing where
  stored := by simp [new]
  finished := by simp [new]
  defragger := by simp [new]

theorem set_defragger {m : ClientUdpManager} (h : m.Closing) {i : Nat} {session : UdpSession}
    (hsession : session.defragger.Inv) : ∀ s ∈ m.returned.set i session, s.defragger.Inv := by
  intro s hs
  rcases List.mem_or_eq_of_mem_set hs with hold | rfl
  · exact h.defragger s hold
  · exact hsession

theorem Step.closing {profile : Profile} {m after : ClientUdpManager} {event : Event}
    (hstep : Step profile m event after) (h : m.Closing)
    (hguard : event = .clear → ∀ call, m.calls.get call = none) : after.Closing := by
  cases hstep with
  | refused => exact h
  | checked hopen hsize hcall =>
    refine ⟨h.stored, ?_, h.defragger⟩
    intro hreader
    have hclosed := (h.finished hreader).1
    rw [hopen] at hclosed
    cases hclosed
  | fetchAdd hcall =>
    refine ⟨h.stored, ?_, h.defragger⟩
    intro hreader
    rw [(h.finished hreader).2.1] at hcall
    cases hcall
  | insert hcall =>
    refine ⟨h.stored, ?_, ?_⟩
    · intro hreader
      rw [(h.finished hreader).2.1] at hcall
      cases hcall
    · intro session hsession
      rcases List.mem_append.mp hsession with hold | hnew
      · exact h.defragger session hold
      · obtain rfl := List.mem_singleton.mp hnew
        exact Defragger.empty_inv
  | skipped => exact h
  | picked => exact ⟨by simp, by simp, h.defragger⟩
  | discarded => exact ⟨by simp, by simp, h.defragger⟩
  | queued _ hsession =>
    have hold := h.defragger _ (List.mem_of_getElem? hsession)
    exact ⟨by simp, by simp, set_defragger h hold⟩
  | stored => exact ⟨fun _ => rfl, by simp, h.defragger⟩
  | cleared hreader =>
    refine ⟨by simp, ?_, h.defragger⟩
    intro _
    exact ⟨h.stored hreader, hguard rfl, rfl⟩
  | received hsession hreceive =>
    refine ⟨h.stored, h.finished, set_defragger h ?_⟩
    obtain ⟨_, _, hspec, hinv, _⟩ := UdpSession.receive_spec (ε := Empty) profile
      (m.senderAlive _ _) (h.defragger _ (List.mem_of_getElem? hsession))
    cases hreceive.symm.trans hspec
    exact hinv
  | swapped hsession =>
    have hold := h.defragger _ (List.mem_of_getElem? hsession)
    exact ⟨h.stored, h.finished, set_defragger h hold⟩
  | removed =>
    refine ⟨h.stored, ?_, h.defragger⟩
    intro hreader
    obtain ⟨hclosed, hcalls, hempty⟩ := h.finished hreader
    refine ⟨hclosed, hcalls, ?_⟩
    dsimp only
    rw [hempty]
    ext id
    simp [PartialMap.get_remove]
  | dropped hsession =>
    have hold := h.defragger _ (List.mem_of_getElem? hsession)
    exact ⟨h.stored, h.finished, set_defragger h hold⟩

/-- Whenever the map is cleared while no call of `new_udp` stands between its check
and its insert, the map is and stays empty after `close_all`, and `receive` on
every session ever returned ends with `Closed`. -/
theorem closed_manager_ends (profile : Profile) (events : List Event) (m : ClientUdpManager)
    (hrun : run (step profile) new events = some m)
    (hguard : Along (step profile)
      (fun before event _ => event = .clear → ∀ call, before.calls.get call = none) new events)
    (hfinished : m.reader = .finished) :
    m.sessions = .empty ∧ ∀ (i : Nat) (session : UdpSession), m.returned[i]? = some session →
      session.EndsClosed profile (m.senderAlive i session) := by
  have hclosing : m.Closing := run_induction_along
    (fun _ _ _ h hstep hguard => (step_cases hstep).closing h hguard) new_closing hguard hrun
  obtain ⟨_, _, hempty⟩ := hclosing.finished hfinished
  refine ⟨hempty, ?_⟩
  intro i session hsession
  have hdead : m.senderAlive i session = false := by
    simp [senderAlive, hempty, hfinished]
  rw [hdead]
  exact session.endsClosed profile (hclosing.defragger _ (List.mem_of_getElem? hsession))

def oneSession : List Event :=
  [.load 0 4, .fetchAdd 0, .insert 0, .store, .load 1 4, .clear]

theorem closed_manager_ends_one :
    ∃ m, run (step ⟨true⟩) new oneSession = some m ∧ m.returned.length = 1 ∧
      m.sessions = .empty ∧ ∀ (i : Nat) (session : UdpSession), m.returned[i]? = some session →
        session.EndsClosed ⟨true⟩ (m.senderAlive i session) := by
  refine ⟨_, rfl, rfl, ?_⟩
  apply closed_manager_ends ⟨true⟩ oneSession _ rfl _ rfl
  have hnone (call : Nat) :
      (((PartialMap.empty.insert 0 (.checked 4)).insert 0 (.numbered 4 1)).remove 0 :
        PartialMap Nat NewUdp).get call = none := by
    by_cases h : call = 0
    · rw [h, PartialMap.get_remove_self]
    · simp [PartialMap.get_remove, PartialMap.get_insert, h]
  rintro _ ⟨⟩
  refine ⟨by rintro ⟨⟩, ?_⟩
  rintro _ ⟨⟩
  refine ⟨by rintro ⟨⟩, ?_⟩
  rintro _ ⟨⟩
  refine ⟨by rintro ⟨⟩, ?_⟩
  rintro _ ⟨⟩
  refine ⟨by rintro ⟨⟩, ?_⟩
  rintro _ ⟨⟩
  refine ⟨by rintro ⟨⟩, ?_⟩
  rintro _ ⟨⟩
  exact ⟨fun _ => hnone, trivial⟩

/-- A call that has passed its check before the flag is set inserts its session
after the map was cleared, and whoever receives on it waits for good. -/
theorem insert_after_clear :
    ∃ m session, run (step ⟨true⟩) new [.load 0 4, .store, .clear, .fetchAdd 0, .insert 0] = some m ∧
      m.reader = .finished ∧ (∀ call, m.calls.get call = none) ∧ m.sessions.get 1 = some 0 ∧
      m.returned[0]? = some session ∧
      (session.receive ⟨true⟩ (m.senderAlive 0 session) : Exec Empty _) = .ok (.waiting, session) := by
  refine ⟨_, _, rfl, rfl, ?_, rfl, rfl, rfl⟩
  intro call
  by_cases h : call = 0
  · rw [h]
    rfl
  · simp [PartialMap.get_remove, PartialMap.get_insert, h, new]

end ClientUdpManager
end Hysteria.Core
