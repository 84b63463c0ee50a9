import Hysteria.Core.ClientUdpClose

/-! Whether one UDP session of the client notices how another is read. The reader loop waits
for room in the channel of the session it forwards to, so a run is compared with the run in
which some sessions are never read: everything else happens in the same order. -/
namespace Hysteria.Core
open Lib

structure UdpSession.Received (session after : UdpSession) : Prop where
  eq : after = { session with defragger := after.defragger, queue := after.queue }
  shorter : after.queue.length ≤ session.queue.length

theorem length_receiveLoop {profile : Profile} {senderAlive : Bool} {defragger after : Defragger}
    {queue rest : List UDPMessage} {outcome : ReceiveOutcome}
    (h : (receiveLoop profile senderAlive defragger queue : Exec ε _) = .ok (outcome, after, rest)) :
    rest.length ≤ queue.length := by
  induction queue generalizing defragger with
  | nil =>
    cases h
    exact Nat.le_refl _
  | cons message queue ih =>
    rw [receiveLoop] at h
    cases hfeed : (defragger.feed profile message : Exec ε _) with
    | error => rw [hfeed] at h; cases h
    | ok fed =>
      obtain ⟨out, fed⟩ := fed
      rw [hfeed] at h
      cases out with
      | some =>
        cases h
        exact Nat.le_succ _
      | none => exact (ih h).trans (Nat.le_succ _)

theorem UdpSession.received_of_receive {profile : Profile} {senderAlive : Bool} {session after : UdpSession}
    {outcome : ReceiveOutcome}
    (h : (session.receive profile senderAlive : Exec ε _) = .ok (outcome, after)) : session.Received after := by
  rw [receive] at h
  cases hloop : (receiveLoop profile senderAlive session.defragger session.queue : Exec ε _) with
  | error => rw [hloop] at h; cases h
  | ok looped =>
    obtain ⟨outcome, defragger, queue⟩ := looped
    rw [hloop] at h
    cases h
    exact ⟨rfl, length_receiveLoop hloop⟩

namespace ClientUdpManager

def Event.receivedBy (hidden : Nat → Bool) : Event → Bool
  | .receive i => hidden i
  | _ => false

/-- The run without the calls of `receive` of the hidden sessions. -/
def unread (hidden : Nat → Bool) (events : List Event) : List Event :=
  events.filter fun event => !event.receivedBy hidden

def forwardsTo (m : ClientUdpManager) (event : Event) (i : Nat) : Nat :=
  match event, m.reader with
  | .forward, .forwarding j _ => if j = i ∧ (m.returned[j]?).any fun session => !session.dropped then 1 else 0
  | _, _ => 0

def forwarded (profile : Profile) (i : Nat) : ClientUdpManager → List Event → Nat
  | _, [] => 0
  | m, event :: events =>
    m.forwardsTo event i +
      match step profile m event with
      | some after => forwarded profile i after events
      | none => 0

/-- The two managers differ at most in the hidden sessions. -/
def SameOutside (hidden : Nat → Bool) (m m' : ClientUdpManager) : Prop :=
  { m with returned := m'.returned } = m' ∧ ∀ i, hidden i = false → m.returned[i]? = m'.returned[i]?

/-- A hidden session is the same up to what it has read: its channel holds all that was ever
put into it. -/
def Twin (hidden : Nat → Bool) (count : Nat → Nat) (i : Nat) (session twin : UdpSession) : Prop :=
  if hidden i then
    twin = { session with defragger := twin.defragger, queue := twin.queue } ∧ twin.queue.length = count i
  else twin = session

theorem Twin.eq {hidden : Nat → Bool} {count : Nat → Nat} {i : Nat} {session twin : UdpSession}
    (h : Twin hidden count i session twin) :
    twin = { session with defragger := twin.defragger, queue := twin.queue } := by
  unfold Twin at h
  split at h
  · exact h.1
  · rw [h]

theorem Twin.map {hidden : Nat → Bool} {count : Nat → Nat} {i : Nat} {session twin : UdpSession}
    (h : Twin hidden count i session twin) (f g : Bool → Bool) :
    Twin hidden count i { session with closed := f session.closed, dropped := g session.dropped }
      { twin with closed := f twin.closed, dropped := g twin.dropped } := by
  unfold Twin at h ⊢
  split at h
  · next hhidden =>
    rw [if_pos hhidden]
    refine ⟨?_, h.2⟩
    rw [h.1]
  · next hhidden => rw [if_neg hhidden, h]

theorem Twin.push {hidden : Nat → Bool} {count count' : Nat → Nat} {i : Nat} {session twin : UdpSession}
    (h : Twin hidden count i session twin) (hcount : count' i = count i + 1) (message : UDPMessage) :
    Twin hidden count' i { session with queue := session.queue ++ [message] }
      { twin with queue := twin.queue ++ [message] } := by
  unfold Twin at h ⊢
  split at h
  · next hhidden =>
    rw [if_pos hhidden]
    refine ⟨?_, by rw [List.length_append, h.2, hcount]; rfl⟩
    rw [h.1]
  · next hhidden => rw [if_neg hhidden, h]

structure Twins (hidden : Nat → Bool) (count : Nat → Nat) (sessions twins : List UdpSession) : Prop where
  length : twins.length = sessions.length
  twin : ∀ {i session twin}, sessions[i]? = some session → twins[i]? = some twin → Twin hidden count i session twin
  fresh : ∀ i, sessions.length ≤ i → count i = 0

section
variable {hidden : Nat → Bool} {count : Nat → Nat} {sessions twins : List UdpSession}

theorem Twins.get (h : Twins hidden count sessions twins) {i : Nat} {session : UdpSession}
    (hsession : sessions[i]? = some session) : ∃ twin, twins[i]? = some twin ∧ Twin hidden count i session twin := by
  have hlt : i < twins.length := by
    rw [h.length]
    exact (List.getElem?_eq_some_iff.mp hsession).1
  exact ⟨twins[i], List.getElem?_eq_getElem hlt, h.twin hsession (List.getElem?_eq_getElem hlt)⟩

theorem Twins.append (h : Twins hidden count sessions twins) {session : UdpSession} (hqueue : session.queue = []) :
    Twins hidden count (sessions ++ [session]) (twins ++ [session]) where
  length := by simp [h.length]
  twin {i s t} hs ht := by
    rcases Nat.lt_or_ge i sessions.length with hlt | hge
    · rw [List.getElem?_append_left hlt] at hs
      rw [List.getElem?_append_left (h.length ▸ hlt)] at ht
      exact h.twin hs ht
    · rw [List.getElem?_append_right hge] at hs
      rw [List.getElem?_append_right (h.length ▸ hge), h.length] at ht
      obtain rfl : s = session := List.mem_singleton.mp (List.mem_of_getElem? hs)
      obtain rfl : t = s := List.mem_singleton.mp (List.mem_of_getElem? ht)
      unfold Twin
      split
      · exact ⟨rfl, by rw [hqueue, h.fresh i hge, List.length_nil]⟩
      · rfl
  fresh i hi := h.fresh i (by rw [List.length_append] at hi; omega)

theorem Twins.set (h : Twins hidden count sessions twins) {count' : Nat → Nat} {i : Nat}
    (hcount : ∀ j, j ≠ i → count' j = count j) (hi : i < sessions.length) {session twin : UdpSession}
    (htwin : Twin hidden count' i session twin) :
    Twins hidden count' (sessions.set i session) (twins.set i twin) where
  length := by simp [h.length]
  twin {j s t} hs ht := by
    by_cases hj : i = j
    · subst hj
      rw [List.getElem?_set_self hi] at hs
      rw [List.getElem?_set_self (h.length ▸ hi)] at ht
      cases hs
      cases ht
      exact htwin
    · rw [List.getElem?_set_ne hj] at hs ht
      have hold := h.twin hs ht
      unfold Twin at hold ⊢
      rwa [hcount j (Ne.symm hj)]
  fresh j hj := by
    rw [List.length_set] at hj
    rw [hcount j (by omega), h.fresh j hj]

theorem Twins.set_same (h : Twins hidden count sessions twins) {i : Nat} {old session twin : UdpSession}
    (hold : sessions[i]? = some old) (htwin : Twin hidden count i session twin) :
    Twins hidden count (sessions.set i session) (twins.set i twin) :=
  h.set (fun _ _ => rfl) (List.getElem?_eq_some_iff.mp hold).1 htwin

end

def Event.onSession : Event → Bool
  | .insert _ | .forward | .receive _ | .swapClosed _ | .dropLast _ => true
  | _ => false

theorem step_offSession (profile : Profile) (m : ClientUdpManager) (twins : List UdpSession) {event : Event}
    (h : event.onSession = false) :
    step profile { m with returned := twins } event =
      (step profile m event).map fun after => { after with returned := twins } := by
  cases event with
  | load | fetchAdd | store | clear | removeSession =>
    simp only [step]
    split <;> rfl
  | datagram =>
    simp only [step]
    split
    · split <;> rfl
    · rfl
    · rfl
  | insert | forward | receive | swapClosed | dropLast => cases h

theorem Step.returned_eq {profile : Profile} {m after : ClientUdpManager} {event : Event}
    (hstep : Step profile m event after) (h : event.onSession = false) : after.returned = m.returned := by
  cases hstep <;> first | rfl | cases h

/-- The step can be taken with the twins too, or the reader waits for room in a hidden session. -/
def Mirrored (profile : Profile) (hidden : Nat → Bool) (count : Nat → Nat) (m : ClientUdpManager)
    (twins : List UdpSession) (event : Event) (after : ClientUdpManager) : Prop :=
  (∃ twins', step profile { m with returned := twins } event = some { after with returned := twins' } ∧
    Twins hidden (fun i => count i + m.forwardsTo event i) after.returned twins') ∨
  step profile { m with returned := twins } event = none ∧
    ∃ i session, hidden i ∧ m.returned[i]? = some session ∧ session.capacity ≤ count i ∧
      m.forwardsTo event i = 1

section
variable {profile : Profile} {hidden : Nat → Bool} {count : Nat → Nat} {m after : ClientUdpManager}
  {twins : List UdpSession} {event : Event}

theorem mirror_offSession (h : Twins hidden count m.returned twins) (hstep : step profile m event = some after)
    (hon : event.onSession = false) : Mirrored profile hidden count m twins event after := by
  have hcount : (fun i => count i + m.forwardsTo event i) = count := by
    funext i
    cases event <;> first | rfl | cases hon
  refine .inl ⟨twins, ?_, ?_⟩
  · rw [step_offSession profile m twins hon, hstep]
    rfl
  · rw [hcount, (step_cases hstep).returned_eq hon]
    exact h

theorem mirror_queued (h : Twins hidden count m.returned twins) {i : Nat} {message : UDPMessage}
    {session : UdpSession} (hreader : m.reader = .forwarding i message) (hsession : m.returned[i]? = some session)
    (hdropped : session.dropped = false) (hroom : session.queue.length < session.capacity) :
    Mirrored profile hidden count m twins .forward
      { m with
        returned := m.returned.set i { session with queue := session.queue ++ [message] }
        reader := .reading } := by
  obtain ⟨twin, htwin, htwins⟩ := h.get hsession
  have hforwards : ∀ j, m.forwardsTo .forward j = if i = j then 1 else 0 := by
    intro j
    simp [forwardsTo, hreader, hsession, hdropped]
  have hdropped' : twin.dropped = false := by rw [htwins.eq, hdropped]
  have hcapacity : twin.capacity = session.capacity := by rw [htwins.eq]
  by_cases hfull : twin.queue.length < session.capacity
  · refine .inl ⟨twins.set i { twin with queue := twin.queue ++ [message] }, ?_, ?_⟩
    · simp only [step, hreader, htwin, hdropped', hcapacity, hfull, Bool.false_eq_true, if_false, if_true]
    · apply h.set
      · intro j hj
        rw [hforwards, if_neg (Ne.symm hj), Nat.add_zero]
      · exact (List.getElem?_eq_some_iff.mp hsession).1
      · exact htwins.push (by rw [hforwards, if_pos rfl]) message
  · -- A session that is not hidden has as much room as in the run that is mirrored.
    have hhidden : hidden i := by
      by_contra hhidden
      rw [Twin, if_neg hhidden] at htwins
      rw [htwins] at hfull
      exact hfull hroom
    rw [Twin, if_pos hhidden] at htwins
    refine .inr ⟨?_, i, session, hhidden, hsession, by omega, by rw [hforwards, if_pos rfl]⟩
    simp only [step, hreader, htwin, hdropped', hcapacity, hfull, Bool.false_eq_true, if_false]

theorem mirror_step (h : Twins hidden count m.returned twins) (hstep : step profile m event = some after)
    (hvisible : event.receivedBy hidden = false) : Mirrored profile hidden count m twins event after := by
  cases hon : event.onSession with
  | false => exact mirror_offSession h hstep hon
  | true =>
    cases step_cases hstep with
    | refused | checked | fetchAdd | skipped | picked | stored | cleared | removed => cases hon
    | insert hcall =>
      refine .inl ⟨_, ?_, h.append rfl⟩
      simp only [step, hcall, h.length]
    | @discarded i message session hreader hsession hdropped =>
      obtain ⟨twin, htwin, htwins⟩ := h.get hsession
      have hcount : (fun j => count j + m.forwardsTo .forward j) = count := by
        funext j
        simp [forwardsTo, hreader, hsession, hdropped]
      have hdropped' : twin.dropped = true := by rw [htwins.eq, hdropped]
      refine .inl ⟨twins, ?_, by rw [hcount]; exact h⟩
      simp only [step, hreader, htwin, hdropped', if_true]
    | queued hreader hsession hdropped hroom => exact mirror_queued h hreader hsession hdropped hroom
    | @received i session after outcome hsession hreceive =>
      obtain ⟨twin, htwin, htwins⟩ := h.get hsession
      have hhidden : ¬ hidden i = true := by
        rw [Event.receivedBy] at hvisible
        simp [hvisible]
      rw [Twin, if_neg hhidden] at htwins
      subst htwins
      refine .inl ⟨twins.set i after, ?_, h.set_same hsession (by rw [Twin, if_neg hhidden])⟩
      simp only [step, htwin]
      rw [show senderAlive { m with returned := twins } i twin = m.senderAlive i twin from rfl, hreceive]
    | @swapped i session hsession =>
      obtain ⟨twin, htwin, htwins⟩ := h.get hsession
      have hclosed : twin.closed = session.closed := by rw [htwins.eq]
      have hid : twin.sessionId = session.sessionId := by rw [htwins.eq]
      refine .inl ⟨twins.set i { twin with closed := true }, ?_, h.set_same hsession (htwins.map (fun _ => true) id)⟩
      simp only [step, htwin, hclosed, hid]
    | @dropped i session hsession hclosed =>
      obtain ⟨twin, htwin, htwins⟩ := h.get hsession
      have hclosed' : twin.closed = session.closed := by rw [htwins.eq]
      refine .inl ⟨twins.set i { twin with dropped := true }, ?_, h.set_same hsession (htwins.map id fun _ => true)⟩
      simp only [step, htwin, hclosed', hclosed, if_true]

theorem Twins.receive (h : Twins hidden count m.returned twins) (hstep : step profile m event = some after)
    (hhidden : event.receivedBy hidden = true) :
    { after with returned := twins } = { m with returned := twins } ∧
      (∀ i, m.forwardsTo event i = 0) ∧ Twins hidden count after.returned twins := by
  cases step_cases hstep with
  | refused | checked | fetchAdd | insert | skipped | picked | discarded | queued | stored | cleared | swapped
  | removed | dropped => cases hhidden
  | @received i session after outcome hsession hreceive =>
    refine ⟨rfl, fun _ => rfl, ?_⟩
    obtain ⟨twin, htwin, htwins⟩ := h.get hsession
    have hself : twins.set i twin = twins := by
      obtain ⟨hlt, rfl⟩ := List.getElem?_eq_some_iff.mp htwin
      exact List.set_getElem_self hlt
    rw [← hself]
    apply h.set_same hsession
    rw [Event.receivedBy] at hhidden
    rw [Twin, if_pos hhidden] at htwins ⊢
    refine ⟨?_, htwins.2⟩
    rw [htwins.1, (UdpSession.received_of_receive hreceive).eq]

end

theorem exists_set {P : UdpSession → Prop} {sessions : List UdpSession} {i j : Nat} {new : UdpSession}
    (h : ∃ session, sessions[i]? = some session ∧ P session) (hnew : j = i → P new) :
    ∃ session, (sessions.set j new)[i]? = some session ∧ P session := by
  obtain ⟨session, hsession, hP⟩ := h
  by_cases hij : j = i
  · subst hij
    exact ⟨new, List.getElem?_set_self (List.getElem?_eq_some_iff.mp hsession).1, hnew rfl⟩
  · exact ⟨session, by rw [List.getElem?_set_ne hij, hsession], hP⟩

theorem exists_append {P : UdpSession → Prop} {sessions : List UdpSession} {i : Nat} (new : UdpSession)
    (h : ∃ session, sessions[i]? = some session ∧ P session) :
    ∃ session, (sessions ++ [new])[i]? = some session ∧ P session := by
  obtain ⟨session, hsession, hP⟩ := h
  exact ⟨session, (List.getElem?_append_left (List.getElem?_eq_some_iff.mp hsession).1).trans hsession, hP⟩

theorem capacity_step {profile : Profile} {m after : ClientUdpManager} {event : Event}
    (hstep : step profile m event = some after) {i : Nat} {session : UdpSession}
    (hsession : m.returned[i]? = some session) :
    ∃ later, after.returned[i]? = some later ∧ later.capacity = session.capacity := by
  cases step_cases hstep with
  | refused | checked | fetchAdd | skipped | picked | discarded | stored | cleared | removed =>
    exact ⟨session, hsession, rfl⟩
  | insert => exact exists_append _ ⟨session, hsession, rfl⟩
  | queued _ hold | swapped hold | dropped hold =>
    refine exists_set ⟨session, hsession, rfl⟩ ?_
    rintro rfl
    rw [hold] at hsession
    cases hsession
    rfl
  | received hold hreceive =>
    refine exists_set ⟨session, hsession, rfl⟩ ?_
    rintro rfl
    rw [hold] at hsession
    cases hsession
    rw [(UdpSession.received_of_receive hreceive).eq]

theorem capacity_run {profile : Profile} {m after : ClientUdpManager} {events : List Event}
    (hrun : run (step profile) m events = some after) {i : Nat} {session : UdpSession}
    (hsession : m.returned[i]? = some session) :
    ∃ later, after.returned[i]? = some later ∧ later.capacity = session.capacity := by
  induction events generalizing m session with
  | nil =>
    cases hrun
    exact ⟨session, hsession, rfl⟩
  | cons event events ih =>
    obtain ⟨next, hstep, hrest⟩ := run_cons.mp hrun
    obtain ⟨later, hlater, hcapacity⟩ := capacity_step hstep hsession
    obtain ⟨last, hlast, hcapacity'⟩ := ih hrest hlater
    exact ⟨last, hlast, hcapacity'.trans hcapacity⟩

def Bounded (m : ClientUdpManager) : Prop := ∀ session ∈ m.returned, session.queue.length ≤ session.capacity

theorem bounded_set {sessions : List UdpSession} (h : ∀ session ∈ sessions, session.queue.length ≤ session.capacity)
    {i : Nat} {new : UdpSession} (hnew : new.queue.length ≤ new.capacity) :
    ∀ session ∈ sessions.set i new, session.queue.length ≤ session.capacity := by
  intro session hmem
  rcases List.mem_or_eq_of_mem_set hmem with hold | rfl
  · exact h session hold
  · exact hnew

theorem step_bounded {profile : Profile} {m after : ClientUdpManager} {event : Event} (h : m.Bounded)
    (hstep : step profile m event = some after) : after.Bounded := by
  cases step_cases hstep with
  | refused | checked | fetchAdd | skipped | picked | discarded | stored | cleared | removed => exact h
  | insert =>
    intro session hmem
    rcases List.mem_append.mp hmem with hold | hnew
    · exact h session hold
    · obtain rfl := List.mem_singleton.mp hnew
      exact Nat.zero_le _
  | queued _ hsession _ hroom =>
    refine bounded_set h ?_
    rw [List.length_append]
    exact hroom
  | received hsession hreceive =>
    have hreceived := UdpSession.received_of_receive hreceive
    refine bounded_set h ?_
    rw [hreceived.eq]
    exact hreceived.shorter.trans (h _ (List.mem_of_getElem? hsession))
  | swapped hsession | dropped hsession =>
    have hold := h _ (List.mem_of_getElem? hsession)
    exact bounded_set h hold

theorem run_bounded {profile : Profile} {events : List Event} {m : ClientUdpManager}
    (hrun : run (step profile) new events = some m) : m.Bounded :=
  run_induction (fun _ _ _ h hstep => step_bounded h hstep) (by simp [new, Bounded]) hrun

theorem forwarded_cons {profile : Profile} {m after : ClientUdpManager} {event : Event}
    (hstep : step profile m event = some after) (i : Nat) (events : List Event) :
    forwarded profile i m (event :: events) = m.forwardsTo event i + forwarded profile i after events := by
  rw [forwarded, hstep]

theorem mirror_run {profile : Profile} {hidden : Nat → Bool} {count : Nat → Nat} {m after mirrored : ClientUdpManager}
    {twins : List UdpSession} {events : List Event} (h : Twins hidden count m.returned twins)
    (hrun : run (step profile) m events = some after)
    (hmirrored : run (step profile) { m with returned := twins } (unread hidden events) = some mirrored) :
    ∃ twins', mirrored = { after with returned := twins' } ∧
      Twins hidden (fun i => count i + forwarded profile i m events) after.returned twins' := by
  induction events generalizing m twins count with
  | nil =>
    cases hrun
    cases hmirrored
    exact ⟨twins, rfl, h⟩
  | cons event events ih =>
    obtain ⟨next, hstep, hrest⟩ := run_cons.mp hrun
    simp only [forwarded_cons hstep]
    cases hread : event.receivedBy hidden with
    | true =>
      rw [unread, List.filter_cons_of_neg (by simp [hread])] at hmirrored
      obtain ⟨hsame, hnone, htwins⟩ := h.receive hstep hread
      rw [← hsame] at hmirrored
      simpa only [hnone, Nat.zero_add] using ih htwins hrest hmirrored
    | false =>
      rw [unread, List.filter_cons_of_pos (by simp [hread])] at hmirrored
      obtain ⟨next', hstep', hrest'⟩ := run_cons.mp hmirrored
      rcases mirror_step h hstep hread with ⟨twins', hmirror, htwins⟩ | ⟨hnone, -⟩
      · rw [hmirror] at hstep'
        cases hstep'
        simpa only [Nat.add_assoc] using ih htwins hrest hrest'
      · rw [hnone] at hstep'
        cases hstep'

theorem exists_mirror_run {profile : Profile} {hidden : Nat → Bool} {count : Nat → Nat} {m after : ClientUdpManager}
    {twins : List UdpSession} {events : List Event} (h : Twins hidden count m.returned twins)
    (hrun : run (step profile) m events = some after)
    (hroom : ∀ i session, hidden i → after.returned[i]? = some session →
      count i + forwarded profile i m events ≤ session.capacity) :
    ∃ mirrored, run (step profile) { m with returned := twins } (unread hidden events) = some mirrored := by
  induction events generalizing m twins count with
  | nil => exact ⟨_, rfl⟩
  | cons event events ih =>
    obtain ⟨next, hstep, hrest⟩ := run_cons.mp hrun
    simp only [forwarded_cons hstep] at hroom
    cases hread : event.receivedBy hidden with
    | true =>
      obtain ⟨hsame, hnone, htwins⟩ := h.receive hstep hread
      rw [unread, List.filter_cons_of_neg (by simp [hread]), ← hsame]
      exact ih htwins hrest (by simpa only [hnone, Nat.zero_add] using hroom)
    | false =>
      rw [unread, List.filter_cons_of_pos (by simp [hread])]
      rcases mirror_step h hstep hread with ⟨twins', hmirror, htwins⟩ | ⟨-, i, session, hhidden, hsession, hfull, hone⟩
      · obtain ⟨mirrored, hmirrored⟩ := ih htwins hrest (by simpa only [Nat.add_assoc] using hroom)
        exact ⟨mirrored, run_cons.mpr ⟨_, hmirror, hmirrored⟩⟩
      · obtain ⟨later, hlater, hcapacity⟩ := capacity_run hrun hsession
        have hle := hroom i later hhidden hlater
        omega

/-- In every run, the sessions that are not hidden see the same when the hidden ones never
call `receive`, exactly if each hidden one was sent no more than its channel holds. -/
theorem unread_iff {profile : Profile} {events : List Event} {m : ClientUdpManager}
    (hrun : run (step profile) new events = some m) (hidden : Nat → Bool) :
    (∃ m', run (step profile) new (unread hidden events) = some m' ∧ m'.SameOutside hidden m) ↔
      ∀ i session, hidden i → m.returned[i]? = some session → forwarded profile i new events ≤ session.capacity := by
  have hnew : Twins hidden (fun _ => 0) new.returned [] := ⟨rfl, by simp [new], fun _ _ => rfl⟩
  constructor
  · rintro ⟨m', hrun', -⟩ i session hhidden hsession
    obtain ⟨twins, rfl, htwins⟩ := mirror_run hnew hrun hrun'
    obtain ⟨twin, htwin, hpair⟩ := htwins.get hsession
    have hle := run_bounded hrun' twin (List.mem_of_getElem? htwin)
    have hcapacity : twin.capacity = session.capacity := by rw [hpair.eq]
    rw [Twin, if_pos hhidden, Nat.zero_add] at hpair
    rw [← hpair.2, ← hcapacity]
    exact hle
  · intro hroom
    obtain ⟨m', hrun'⟩ := exists_mirror_run hnew hrun (by simpa only [Nat.zero_add] using hroom)
    obtain ⟨twins, rfl, htwins⟩ := mirror_run hnew hrun hrun'
    refine ⟨_, hrun', rfl, ?_⟩
    intro i hvisible
    cases hsession : m.returned[i]? with
    | none =>
      rw [List.getElem?_eq_none_iff] at hsession ⊢
      rw [htwins.length]
      exact hsession
    | some session =>
      obtain ⟨twin, htwin, hpair⟩ := htwins.get hsession
      rw [Twin, if_neg (by simp [hvisible])] at hpair
      rw [← hpair]
      exact htwin

def toFirst : List UInt8 := [0, 0, 0, 1, 0, 0, 0, 1, 1, 97, 7]
def toSecond : List UInt8 := [0, 0, 0, 2, 0, 0, 0, 1, 1, 97, 7]

def openTwo (size : Nat) : List Event :=
  [.load 0 size, .fetchAdd 0, .insert 0, .load 0 size, .fetchAdd 0, .insert 0]

def roomy : List Event :=
  openTwo 1 ++ [.datagram toFirst, .forward, .receive 0, .datagram toSecond, .forward, .store, .clear]

theorem isSome_roomy : (run (step ⟨true⟩) new roomy).isSome := by decide +kernel

theorem unread_iff_roomy :
    ∃ m m', run (step ⟨true⟩) new roomy = some m ∧ run (step ⟨true⟩) new (unread (· = 0) roomy) = some m' ∧
      m'.SameOutside (· = 0) m := by
  have hrun := (Option.some_get isSome_roomy).symm
  obtain ⟨m', hrun', hsame⟩ := (unread_iff hrun (· = 0)).mpr (by
    intro i session hi hsession
    obtain rfl : i = 0 := of_decide_eq_true hi
    have hcapacity : (((run (step ⟨true⟩) new roomy).get isSome_roomy).returned[0]?.map UdpSession.capacity) =
        some 1 := by decide +kernel
    rw [hsession, Option.map_some, Option.some.injEq] at hcapacity
    have hforwarded : forwarded ⟨true⟩ 0 new roomy = 1 := by decide +kernel
    omega)
  exact ⟨_, m', hrun, hrun', hsame⟩

/-- The reader waits for room in session `i`, while session `j` has nothing to read. -/
structure Starved (i j : Nat) (m : ClientUdpManager) : Prop where
  reader : ∃ message, m.reader = .forwarding i message
  full : ∃ session, m.returned[i]? = some session ∧
    session.dropped = false ∧ session.capacity ≤ session.queue.length
  empty : ∃ session, m.returned[j]? = some session ∧ session.queue = []
  still : m.closed = false

theorem step_starved {profile : Profile} {i j : Nat} {m after : ClientUdpManager} {event : Event}
    (h : m.Starved i j) (hreceive : event ≠ .receive i) (hdrop : event ≠ .dropLast i)
    (hstep : step profile m event = some after) : after.Starved i j := by
  obtain ⟨message, hreader⟩ := h.reader
  obtain ⟨waiting, hwaiting, hopen, hfull⟩ := h.full
  cases step_cases hstep with
  | refused | checked | fetchAdd | removed => exact ⟨h.reader, h.full, h.empty, h.still⟩
  | insert => exact ⟨h.reader, exists_append _ h.full, exists_append _ h.empty, h.still⟩
  | skipped hreading | picked hreading | stored hreading | cleared hreading =>
    rw [hreader] at hreading
    cases hreading
  | discarded hforwarding hsession hdropped =>
    rw [hreader] at hforwarding
    cases hforwarding
    rw [hwaiting] at hsession
    cases hsession
    rw [hopen] at hdropped
    cases hdropped
  | queued hforwarding hsession _ hroom =>
    rw [hreader] at hforwarding
    cases hforwarding
    rw [hwaiting] at hsession
    cases hsession
    omega
  | received hsession hreceived =>
    have hshorter := UdpSession.received_of_receive hreceived
    refine ⟨h.reader, exists_set h.full ?_, exists_set h.empty ?_, h.still⟩
    · rintro rfl
      exact absurd rfl hreceive
    · rintro rfl
      obtain ⟨session, hsession', hempty⟩ := h.empty
      rw [hsession] at hsession'
      cases hsession'
      have hlength := hshorter.shorter
      rw [hempty] at hlength
      exact List.eq_nil_of_length_eq_zero (Nat.le_zero.mp hlength)
  | swapped hsession =>
    refine ⟨h.reader, exists_set h.full ?_, exists_set h.empty ?_, h.still⟩
    · rintro rfl
      rw [hwaiting] at hsession
      cases hsession
      exact ⟨hopen, hfull⟩
    · rintro rfl
      obtain ⟨session, hsession', hempty⟩ := h.empty
      rw [hsession] at hsession'
      cases hsession'
      exact hempty
  | dropped hsession =>
    refine ⟨h.reader, exists_set h.full ?_, exists_set h.empty ?_, h.still⟩
    · rintro rfl
      exact absurd rfl hdrop
    · rintro rfl
      obtain ⟨session, hsession', hempty⟩ := h.empty
      rw [hsession] at hsession'
      cases hsession'
      exact hempty

/-- Nothing but the consumer of the full session gets the reader on. -/
theorem run_starved {profile : Profile} {i j : Nat} {m after : ClientUdpManager} {events : List Event}
    (h : m.Starved i j) (hidle : ∀ event ∈ events, event ≠ .receive i ∧ event ≠ .dropLast i)
    (hrun : run (step profile) m events = some after) : after.Starved i j := by
  induction events generalizing m with
  | nil =>
    cases hrun
    exact h
  | cons event events ih =>
    obtain ⟨next, hstep, hrest⟩ := run_cons.mp hrun
    obtain ⟨⟨hreceive, hdrop⟩, hidle⟩ := List.forall_mem_cons.mp hidle
    exact ih (step_starved h hreceive hdrop hstep) hidle hrest

def stalled : List Event := openTwo 1 ++ [.datagram toFirst, .forward, .datagram toFirst]

theorem isSome_stalled : (run (step ⟨true⟩) new stalled).isSome := by decide +kernel

/-- The second session's channel is empty. As long as the first one is neither read nor
dropped, in every continuation its next message is not queued and the end of the connection
does not reach it; after one call of `receive` of the first session both would happen. -/
theorem reader_stalled :
    ∃ m, run (step ⟨true⟩) new stalled = some m ∧
      (∀ events after, (∀ event ∈ events, event ≠ .receive 0 ∧ event ≠ .dropLast 0) →
        run (step ⟨true⟩) m events = some after → after.Starved 0 1) ∧
      ((run (step ⟨true⟩) m [.receive 0, .forward, .datagram toSecond, .forward, .store, .clear]).map fun after =>
        (after.closed, after.returned[1]?.map fun session => session.queue.length)) = some (true, some 1) := by
  have hrun := (Option.some_get isSome_stalled).symm
  refine ⟨_, hrun, ?_, by decide +kernel⟩
  intro events after hidle hafter
  refine run_starved ⟨?_, ?_, ?_, ?_⟩ hidle hafter
  · exact ⟨⟨1, 0, 0, 1, "a", [7]⟩, by decide +kernel⟩
  · have hany : (((run (step ⟨true⟩) new stalled).get isSome_stalled).returned[0]?).any (fun session =>
        session.dropped = false ∧ session.capacity ≤ session.queue.length) := by decide +kernel
    simpa only [Option.any_eq_true, decide_eq_true_eq] using hany
  · have hany : (((run (step ⟨true⟩) new stalled).get isSome_stalled).returned[1]?).any (fun session =>
        session.queue = []) := by decide +kernel
    simpa only [Option.any_eq_true, decide_eq_true_eq] using hany
  · decide +kernel

end ClientUdpManager
end Hysteria.Core
