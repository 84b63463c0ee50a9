import Hysteria.App.UdpForwarding

/-! Tearing down a session of the UDP forwarder. Every task removes whatever the map
holds for a peer address, so a session is safe from the teardown of an older one only
if nobody can still remove by its address when it is inserted. -/
namespace Hysteria.App
open Lib

def ReceivePhase.CanRemove (phase : ReceivePhase) : Prop :=
  phase ≠ .dropping ∧ phase ≠ .finished

instance (phase : ReceivePhase) : Decidable phase.CanRemove :=
  inferInstanceAs (Decidable (_ ∧ _))

def CleanupPhase.removable : CleanupPhase → List Nat
  | .examining snapshot expired => snapshot ++ expired
  | .removing n expired => n :: expired
  | .closing _ expired => expired
  | _ => []

variable {Peer : Type}

/-- Between its lookup and its removal the receive loop deals with one session of the
peer, and no other one is in the map. -/
def MainPhase.Fits (sessions : PartialMap Peer Nat) (created : List (UdpForwardSession Peer)) :
    MainPhase Peer → Prop
  | .creating peer => sessions.get peer = none
  | .inserting peer n => sessions.get peer = none ∧
      ∃ session, created[n]? = some session ∧ session.peer = peer
  | .feeding peer n | .removing peer n => ∀ m, sessions.get peer = some m → m = n
  | _ => True

theorem MainPhase.Fits.mono {sessions sessions' : PartialMap Peer Nat}
    {created created' : List (UdpForwardSession Peer)} {phase : MainPhase Peer}
    (h : phase.Fits sessions created)
    (hsessions : ∀ peer n, sessions'.get peer = some n → sessions.get peer = some n)
    (hcreated : ∀ (n : Nat) session, created[n]? = some session →
      ∃ kept, created'[n]? = some kept ∧ kept.peer = session.peer) :
    phase.Fits sessions' created' := by
  have hnone {peer : Peer} (hget : sessions.get peer = none) : sessions'.get peer = none := by
    rw [Option.eq_none_iff_forall_not_mem] at hget ⊢
    exact fun n hn => hget n (hsessions peer n hn)
  cases phase with
  | creating peer => exact hnone h
  | inserting peer n =>
    obtain ⟨hget, session, hsession, rfl⟩ := h
    exact ⟨hnone hget, hcreated n session hsession⟩
  | feeding peer n => exact fun m hm => h m (hsessions peer m hm)
  | removing peer n => exact fun m hm => h m (hsessions peer m hm)
  | waiting | closing | stopped | done => trivial

namespace UdpForwarder

/-- The receive task of the session, or the cleanup loop on its behalf, can still
remove the entry of the peer address. -/
def Removes (s : UdpForwarder Peer) (peer : Peer) (n : Nat) : Prop :=
  ∃ session, s.created[n]? = some session ∧ session.peer = peer ∧
    (session.receiveTask.CanRemove ∨ n ∈ s.cleanup.removable)

structure Paired (s : UdpForwarder Peer) : Prop where
  entry : ∀ peer n, s.sessions.get peer = some n →
    ∃ session, s.created[n]? = some session ∧ session.peer = peer ∧ session.receiveTask.CanRemove
  sole : ∀ peer n m, s.sessions.get peer = some n → s.Removes peer m → m = n
  main : s.main.Fits s.sessions s.created

theorem new_paired : (new : UdpForwarder Peer).Paired where
  entry := by simp [new]
  sole := by simp [new]
  main := trivial

theorem Paired.setMain {s : UdpForwarder Peer} (h : s.Paired) {phase : MainPhase Peer}
    (hfits : phase.Fits s.sessions s.created) : Paired { s with main := phase } :=
  ⟨h.entry, h.sole, hfits⟩

theorem Paired.setCleanup {s : UdpForwarder Peer} (h : s.Paired) {phase : CleanupPhase}
    (hphase : ∀ m ∈ phase.removable, m ∈ s.cleanup.removable ∨
      ∀ session, s.created[m]? = some session → s.sessions.get session.peer = some m) :
    Paired { s with cleanup := phase } where
  entry := h.entry
  sole := by
    rintro peer n m hget ⟨session, hsession, rfl, hcan⟩
    rcases hcan with hcan | hmem
    · exact h.sole _ n m hget ⟨session, hsession, rfl, .inl hcan⟩
    · rcases hphase m hmem with hold | hentry
      · exact h.sole _ n m hget ⟨session, hsession, rfl, .inr hold⟩
      · rw [hentry session hsession] at hget
        exact Option.some.inj hget
  main := h.main

theorem Paired.shrinkCleanup {s : UdpForwarder Peer} (h : s.Paired) {before after : CleanupPhase}
    (hbefore : s.cleanup = before) (hsubset : after.removable ⊆ before.removable) :
    Paired { s with cleanup := after } := by
  apply h.setCleanup
  intro m hm
  rw [hbefore]
  exact .inl (hsubset hm)

theorem Paired.update {s : UdpForwarder Peer} (h : s.Paired) {n : Nat}
    {f : UdpForwardSession Peer → UdpForwardSession Peer}
    (hpeer : ∀ session, (f session).peer = session.peer)
    (hback : ∀ session, s.created[n]? = some session →
      (f session).receiveTask.CanRemove → session.receiveTask.CanRemove)
    (hentry : ∀ session, s.created[n]? = some session → s.sessions.get session.peer = some n →
      (f session).receiveTask.CanRemove) :
    (s.update n f).Paired where
  entry := by
    intro peer m hget
    obtain ⟨session, hsession, rfl, hcan⟩ := h.entry peer m hget
    refine ⟨_, getElem?_modify_of_getElem? hsession, ?_⟩
    split
    · next hm =>
      subst hm
      exact ⟨hpeer session, hentry session hsession hget⟩
    · exact ⟨rfl, hcan⟩
  sole := by
    rintro peer k m hget ⟨session, hsession, rfl, hcan⟩
    obtain ⟨old, hold, ⟨rfl, rfl⟩ | ⟨_, rfl⟩⟩ := of_getElem?_modify hsession
    · exact h.sole _ k m hget ⟨old, hold, (hpeer old).symm, hcan.imp_left (hback old hold)⟩
    · exact h.sole _ k m hget ⟨session, hold, rfl, hcan⟩
  main := by
    refine h.main.mono (fun _ _ hget => hget) ?_
    intro m session hsession
    refine ⟨_, getElem?_modify_of_getElem? hsession, ?_⟩
    split
    · exact hpeer session
    · rfl

theorem Paired.update_keep {s : UdpForwarder Peer} (h : s.Paired) {n : Nat}
    {f : UdpForwardSession Peer → UdpForwardSession Peer}
    (hpeer : ∀ session, (f session).peer = session.peer)
    (htask : ∀ session, (f session).receiveTask = session.receiveTask) :
    (s.update n f).Paired := by
  refine h.update hpeer ?_ ?_
  · intro session _ hcan
    rwa [htask] at hcan
  · intro session hsession hget
    obtain ⟨entry, hentry, _, hcan⟩ := h.entry _ n hget
    obtain rfl : entry = session := Option.some.inj (hentry.symm.trans hsession)
    rwa [htask]

theorem Paired.touch {s : UdpForwarder Peer} (h : s.Paired) (n now : Nat) :
    (s.update n (·.touch now)).Paired :=
  h.update_keep (fun _ => rfl) fun _ => rfl

theorem Paired.close {s : UdpForwarder Peer} (h : s.Paired) (n : Nat) :
    (s.update n (·.close)).Paired :=
  h.update_keep (fun _ => rfl) fun _ => rfl

theorem Paired.markTimedOut {s : UdpForwarder Peer} (h : s.Paired) (n : Nat) :
    (s.update n (·.markTimedOut)).Paired :=
  h.update_keep (fun _ => rfl) fun _ => rfl

theorem advance_eq {s t : UdpForwarder Peer} {n : Nat} {before after : ReceivePhase}
    (h : s.advance n before after = some t) :
    ∃ session, s.created[n]? = some session ∧ session.receiveTask = before ∧
      t = s.update n (·.enter after) := by
  unfold advance at h
  split at h
  · next session hsession =>
    split at h
    · next hbefore => exact ⟨session, hsession, hbefore, (Option.some.inj h).symm⟩
    · cases h
  · cases h

theorem Paired.create {s : UdpForwarder Peer} (h : s.Paired) {peer : Peer}
    (hnone : s.sessions.get peer = none) (now : Nat) :
    Paired { s with
      created := s.created ++ [⟨peer, false, now, false, .receiving⟩]
      main := .inserting peer s.created.length } where
  entry := by
    intro other n hget
    obtain ⟨session, hsession, hrest⟩ := h.entry other n hget
    have hlt : n < s.created.length := (List.getElem?_eq_some_iff.mp hsession).1
    exact ⟨session, (List.getElem?_append_left hlt).trans hsession, hrest⟩
  sole := by
    rintro other n m hget ⟨session, hsession, rfl, hcan⟩
    rcases of_getElem?_concat hsession with hold | ⟨_, rfl⟩
    · exact h.sole _ n m hget ⟨session, hold, rfl, hcan⟩
    · rw [hnone] at hget
      cases hget
  main := ⟨hnone, _, List.getElem?_concat_length, rfl⟩

theorem Paired.advance {s t : UdpForwarder Peer} (h : s.Paired) {n : Nat}
    {before after : ReceivePhase} (hadvance : s.advance n before after = some t)
    (hback : after.CanRemove → before.CanRemove)
    (hentry : ∀ session, s.created[n]? = some session → s.sessions.get session.peer = some n →
      before.CanRemove → after.CanRemove) : t.Paired := by
  obtain ⟨session, hsession, rfl, rfl⟩ := advance_eq hadvance
  have hsame {other : UdpForwardSession Peer} (hother : s.created[n]? = some other) :
      other = session := Option.some.inj (hother.symm.trans hsession)
  refine h.update (fun _ => rfl) ?_ ?_
  · intro other hother hcan
    rw [hsame hother]
    exact hback hcan
  · intro other hother hget
    obtain ⟨entry, hfound, _, hcan⟩ := h.entry _ n hget
    rw [hsame hfound] at hcan
    exact hentry other hother hget hcan

theorem Paired.advance_before {s t : UdpForwarder Peer} (h : s.Paired) {n : Nat}
    {before after : ReceivePhase} (hadvance : s.advance n before after = some t)
    (hbefore : before.CanRemove) (hafter : after.CanRemove) : t.Paired :=
  h.advance hadvance (fun _ => hbefore) fun _ _ _ _ => hafter

theorem peer_of_mem_entries {s : UdpForwarder Peer} {n : Nat} (hn : n ∈ s.entries)
    {session : UdpForwardSession Peer} (hsession : s.created[n]? = some session) :
    s.sessions.get session.peer = some n := by
  have hentry : s.isEntry n = true := (List.mem_filter.mp hn).2
  unfold isEntry at hentry
  rw [hsession] at hentry
  exact of_decide_eq_true hentry

def TearsDown (s : UdpForwarder Peer) (n : Nat) : Event Peer → Prop
  | .mainRemove => ∃ peer, s.main = .removing peer n
  | .mainClose => s.main = .closing n
  | .removeEntry m | .finish m | .dropSession m => m = n
  | .cleanupRemove => ∃ expired, s.cleanup = .removing n expired
  | .cleanupClose => ∃ expired, s.cleanup = .closing n expired
  | _ => False

/-- Every open session but the one torn down stays open, and in the map if it is
there. -/
def Spares (s after : UdpForwarder Peer) (n : Nat) : Prop :=
  ∀ m session, m ≠ n → s.created[m]? = some session → session.tunnelClosed = false →
    (s.sessions.get session.peer = some m → after.sessions.get session.peer = some m) ∧
      ∃ kept, after.created[m]? = some kept ∧ kept.tunnelClosed = false

theorem spares_of_frame {s after : UdpForwarder Peer} {n : Nat}
    (hcreated : ∀ m, m ≠ n → after.created[m]? = s.created[m]?)
    (hsessions : ∀ peer m, m ≠ n → s.sessions.get peer = some m →
      after.sessions.get peer = some m) : Spares s after n := by
  intro m session hm hsession hopen
  exact ⟨hsessions _ m hm, session, (hcreated m hm).trans hsession, hopen⟩

theorem update_frame {s : UdpForwarder Peer} {n m : Nat}
    {f : UdpForwardSession Peer → UdpForwardSession Peer} (hm : m ≠ n) :
    (s.update n f).created[m]? = s.created[m]? :=
  List.getElem?_modify_ne f s.created hm.symm

variable [DecidableEq Peer]

theorem Paired.remove {s : UdpForwarder Peer} (h : s.Paired) (peer : Peer) :
    Paired { s with sessions := s.sessions.remove peer } where
  entry := fun other n hget => h.entry other n (PartialMap.get_of_get_remove hget).2
  sole := fun other n m hget hremoves =>
    h.sole other n m (PartialMap.get_of_get_remove hget).2 hremoves
  main := h.main.mono (fun _ _ hget => (PartialMap.get_of_get_remove hget).2)
    fun _ session hsession => ⟨session, hsession, rfl⟩

/-- The new session is in the map before its own receive task removes the entry, and
nobody can remove it on behalf of another session. -/
def InsertsAlone (s : UdpForwarder Peer) : Prop :=
  ∀ peer n, s.main = .inserting peer n →
    (∀ session, s.created[n]? = some session → session.receiveTask.CanRemove) ∧
      ∀ m, s.Removes peer m → m = n

theorem Paired.insert {s : UdpForwarder Peer} (h : s.Paired) {peer : Peer} {n : Nat}
    (hmain : s.main = .inserting peer n) (halone : s.InsertsAlone) :
    Paired { s with sessions := s.sessions.insert peer n, main := .feeding peer n } where
  entry := by
    intro other m hget
    rcases PartialMap.get_of_get_insert hget with ⟨rfl, rfl⟩ | ⟨_, hold⟩
    · have hfits := h.main
      rw [hmain] at hfits
      obtain ⟨_, session, hsession, hpeer⟩ := hfits
      exact ⟨session, hsession, hpeer, (halone _ _ hmain).1 session hsession⟩
    · exact h.entry other m hold
  sole := by
    intro other k m hget hremoves
    rcases PartialMap.get_of_get_insert hget with ⟨rfl, rfl⟩ | ⟨_, hold⟩
    · exact (halone _ _ hmain).2 m hremoves
    · exact h.sole other k m hold hremoves
  main := by
    intro m hget
    rw [PartialMap.get_insert_self] at hget
    exact (Option.some.inj hget).symm

theorem Paired.stepMain {s after : UdpForwarder Peer} (h : s.Paired) {event : Event Peer}
    (hstep : s.stepMain event = some after) (hinsert : event = .insert → s.InsertsAlone) :
    after.Paired := by
  have hfits := h.main
  unfold UdpForwarder.stepMain at hstep
  split at hstep
  · -- A packet of a known or of a new peer.
    split at hstep <;> cases hstep
    · next n _ hget =>
      refine h.setMain fun m hm => ?_
      rw [hget] at hm
      exact (Option.some.inj hm).symm
    · next hget => exact h.setMain hget
  · split at hstep
    · next hmain =>
      rw [hmain] at hfits
      split at hstep <;> cases hstep
      · exact h.create hfits _
      · exact h.setMain trivial
    · cases hstep
  · split at hstep <;> cases hstep
    next hmain => exact h.insert hmain (hinsert rfl)
  · split at hstep
    · next hmain =>
      rw [hmain] at hfits
      split at hstep <;> cases hstep
      refine (h.touch _ _).setMain ?_
      split
      · trivial
      · exact hfits
    · cases hstep
  · split at hstep <;> cases hstep
    exact (h.remove _).setMain trivial
  · split at hstep <;> cases hstep
    exact (h.close _).setMain trivial
  · split at hstep <;> cases hstep
    exact h.setMain trivial
  · split at hstep <;> cases hstep
    exact ⟨by simp, by simp, trivial⟩
  · cases hstep
    exact ⟨h.entry, h.sole, h.main⟩
  · cases hstep

theorem Paired.stepReceive {s after : UdpForwarder Peer} (h : s.Paired) {event : Event Peer}
    (hstep : s.stepReceive event = some after) : after.Paired := by
  unfold UdpForwarder.stepReceive at hstep
  split at hstep
  · exact h.advance_before hstep (by decide) (by decide)
  · split at hstep
    · split at hstep
      · exact (h.touch _ _).advance_before hstep (by decide) (by decide)
      · exact h.advance_before hstep (by decide) (by decide)
    · cases hstep
  · refine h.advance_before hstep (by decide) ?_
    split <;> decide
  · split at hstep
    · split at hstep
      · exact h.advance_before hstep (by decide) (by decide)
      · cases hstep
    · cases hstep
  · exact h.advance_before hstep (by decide) (by decide)
  · -- The removal: the map no longer has an entry for the peer of this session.
    split at hstep
    · next session hsession =>
      split at hstep
      · refine ((h.remove session.peer).close _).advance hstep (fun _ => by decide) ?_
        intro other hother hget
        obtain ⟨old, hold, ⟨_, rfl⟩ | ⟨_, rfl⟩⟩ := of_getElem?_modify hother
        all_goals
          obtain rfl := Option.some.inj (hsession.symm.trans hold)
          exact absurd rfl (PartialMap.get_of_get_remove hget).1
      · next hnone =>
        refine h.advance hstep (fun _ => by decide) ?_
        intro other hother hget
        obtain rfl := Option.some.inj (hsession.symm.trans hother)
        rw [hnone] at hget
        cases hget
    · cases hstep
  · exact (h.close _).advance hstep (fun hcan => absurd rfl hcan.2) fun _ _ _ hcan => absurd rfl hcan.1
  · split at hstep <;> cases hstep
    exact h.close _
  · cases hstep

theorem Paired.stepCleanup {s after : UdpForwarder Peer} (h : s.Paired) {timeout : Nat}
    {event : Event Peer} (hstep : s.stepCleanup timeout event = some after) : after.Paired := by
  unfold UdpForwarder.stepCleanup at hstep
  split at hstep
  · -- The snapshot: its sessions are in the map.
    split at hstep
    · split at hstep <;> cases hstep
      next hperm =>
      apply h.setCleanup
      intro m hm
      rw [CleanupPhase.removable, List.append_nil] at hm
      exact .inr fun session => peer_of_mem_entries ((List.isPerm_iff.mp hperm).mem_iff.mp hm)
    · cases hstep
  · split at hstep
    · next hcleanup =>
      split at hstep <;> cases hstep
      apply h.shrinkCleanup hcleanup
      intro m hm
      simp only [CleanupPhase.removable] at hm ⊢
      split at hm <;> grind
    · cases hstep
  · split at hstep
    · next hcleanup =>
      split at hstep
      · split at hstep <;> cases hstep
        · exact h.shrinkCleanup hcleanup (List.subset_cons_self _ _)
        · exact (h.markTimedOut _).shrinkCleanup hcleanup (List.Subset.refl _)
      · cases hstep
    · cases hstep
  · split at hstep
    · next hcleanup =>
      split at hstep <;> cases hstep
      exact (h.remove _).shrinkCleanup hcleanup (List.subset_cons_self _ _)
    · cases hstep
  · split at hstep <;> cases hstep
    next hcleanup => exact (h.close _).shrinkCleanup hcleanup (List.Subset.refl _)
  · split at hstep <;> cases hstep
    next hcleanup => exact h.shrinkCleanup hcleanup (List.nil_subset _)
  · cases hstep

theorem step_cases {timeout : Nat} {s after : UdpForwarder Peer} {event : Event Peer}
    (h : s.step timeout event = some after) :
    s.stepMain event = some after ∨ s.stepReceive event = some after ∨
      s.stepCleanup timeout event = some after := by
  unfold step at h
  cases hmain : s.stepMain event with
  | some t => exact .inl (by rwa [hmain] at h)
  | none =>
    rw [hmain] at h
    cases hreceive : s.stepReceive event with
    | some t => exact .inr (.inl (by rwa [hreceive] at h))
    | none =>
      rw [hreceive] at h
      exact .inr (.inr h)

theorem remove_frame {sessions : PartialMap Peer Nat} {peer : Peer} {n : Nat}
    (hsole : ∀ m, sessions.get peer = some m → m = n) (other : Peer) (m : Nat) (hm : m ≠ n)
    (hget : sessions.get other = some m) : (sessions.remove peer).get other = some m := by
  rw [PartialMap.get_remove_of_ne]
  · exact hget
  · rintro rfl
    exact hm (hsole m hget)

theorem removeEntry_spares {s after : UdpForwarder Peer} (h : s.Paired) {k : Nat}
    (hreceive : s.stepReceive (.removeEntry k) = some after) : Spares s after k := by
  simp only [stepReceive] at hreceive
  split at hreceive
  · next session hsession =>
    split at hreceive
    · next m hget =>
      obtain ⟨found, hfound, hphase, rfl⟩ := advance_eq hreceive
      have htask : session.receiveTask = .removing := by
        obtain ⟨old, hold, ⟨_, rfl⟩ | ⟨_, rfl⟩⟩ := of_getElem?_modify hfound
        all_goals
          obtain rfl := Option.some.inj (hsession.symm.trans hold)
          exact hphase
      have hsole (m : Nat) (hm : s.sessions.get session.peer = some m) : m = k :=
        (h.sole _ m k hm ⟨session, hsession, rfl, .inl (by simp [htask, ReceivePhase.CanRemove])⟩).symm
      obtain rfl := hsole m hget
      refine spares_of_frame ?_ (remove_frame hsole)
      intro m hm
      rw [update_frame hm, update_frame hm]
    · obtain ⟨_, _, _, rfl⟩ := advance_eq hreceive
      exact spares_of_frame (fun m hm => update_frame hm) fun _ _ _ hget => hget
  · cases hreceive

theorem tearsDown_spares {s after : UdpForwarder Peer} (h : s.Paired) {timeout : Nat}
    {event : Event Peer} (hstep : s.step timeout event = some after) {n : Nat}
    (hdown : s.TearsDown n event) : Spares s after n := by
  have hfits := h.main
  cases event with
  | mainRemove =>
    obtain ⟨peer, hmain⟩ := hdown
    rw [hmain] at hfits
    obtain rfl : _ = after := by simpa [step, stepMain, hmain] using hstep
    exact spares_of_frame (fun _ _ => rfl) (remove_frame hfits)
  | mainClose =>
    have hmain : s.main = .closing n := hdown
    obtain rfl : _ = after := by simpa [step, stepMain, hmain] using hstep
    exact spares_of_frame (fun m hm => update_frame hm) fun _ _ _ hget => hget
  | removeEntry k =>
    obtain rfl : k = n := hdown
    have hreceive : s.stepReceive (.removeEntry k) = some after := by
      simpa [step, stepMain, stepCleanup] using hstep
    exact removeEntry_spares h hreceive
  | finish k =>
    obtain rfl : k = n := hdown
    have hreceive : s.stepReceive (.finish k) = some after := by
      simpa [step, stepMain, stepCleanup] using hstep
    obtain ⟨_, _, _, rfl⟩ := advance_eq hreceive
    refine spares_of_frame (fun m hm => ?_) fun _ _ _ hget => hget
    rw [update_frame hm, update_frame hm]
  | dropSession k =>
    obtain rfl : k = n := hdown
    have hreceive : s.stepReceive (.dropSession k) = some after := by
      simpa [step, stepMain, stepCleanup] using hstep
    simp only [stepReceive] at hreceive
    split at hreceive <;> cases hreceive
    exact spares_of_frame (fun m hm => update_frame hm) fun _ _ _ hget => hget
  | cleanupRemove =>
    obtain ⟨expired, hcleanup⟩ := hdown
    have hloop : s.stepCleanup timeout .cleanupRemove = some after := by
      simpa [step, stepMain, stepReceive] using hstep
    simp only [stepCleanup, hcleanup] at hloop
    split at hloop <;> cases hloop
    next session hsession =>
    refine spares_of_frame (fun _ _ => rfl) (remove_frame fun m hm => ?_)
    have hremoves : s.Removes session.peer n :=
      ⟨session, hsession, rfl, .inr (by simp [hcleanup, CleanupPhase.removable])⟩
    exact (h.sole _ m n hm hremoves).symm
  | cleanupClose =>
    obtain ⟨expired, hcleanup⟩ := hdown
    obtain rfl : _ = after := by
      simpa [step, stepMain, stepReceive, stepCleanup, hcleanup] using hstep
    exact spares_of_frame (fun m hm => update_frame hm) fun _ _ _ hget => hget
  | _ => cases hdown

/-- No session with a closed tunnel is in the map once its receive task is through. -/
def NoneLeft (s : UdpForwarder Peer) : Prop :=
  ∀ peer n session, s.sessions.get peer = some n → s.created[n]? = some session →
    session.tunnelClosed = true → session.receiveTask ≠ .finished

/-- Along every run in which sessions are inserted alone, the teardown of a session
leaves every other open session in the map and open, and no session stays in the map
with its tunnel closed and its tasks finished. -/
theorem teardown_spares_others (timeout : Nat) (events : List (Event Peer))
    (hinserts : Along (step timeout) (fun s event _ => event = .insert → s.InsertsAlone) new events) :
    Along (step timeout) (fun s event after =>
      (∀ n, s.TearsDown n event → Spares s after n) ∧ after.NoneLeft) new events := by
  refine along_of_inv (I := Paired) ?_ new_paired hinserts
  intro s event after h hstep hinsert
  have hafter : after.Paired := by
    rcases step_cases hstep with hmain | hreceive | hcleanup
    · exact h.stepMain hmain hinsert
    · exact h.stepReceive hreceive
    · exact h.stepCleanup hcleanup
  refine ⟨hafter, fun n hdown => tearsDown_spares h hstep hdown, ?_⟩
  intro peer n session hget hsession _
  obtain ⟨entry, hentry, _, hcan⟩ := hafter.entry peer n hget
  obtain rfl : entry = session := Option.some.inj (hentry.symm.trans hsession)
  exact hcan.2

def expiredThenRecreated : List (Event Nat) :=
  [.packet 7, .create 0 true, .insert, .feed 0 true, .snapshot [0], .examine 61, .expireNext,
    .cleanupRemove, .cleanupClose, .receiveFails 0, .log 0, .removeEntry 0, .finish 0, .packet 7,
    .create 70 true, .insert]

theorem teardown_spares_others_recreated :
    (run (step 60) new expiredThenRecreated).isSome ∧
      Along (step 60) (fun s event after =>
        (∀ n, s.TearsDown n event → Spares s after n) ∧ after.NoneLeft)
        new expiredThenRecreated := by
  refine ⟨rfl, teardown_spares_others 60 expiredThenRecreated ?_⟩
  iterate 2
    rintro _ ⟨⟩
    refine ⟨nofun, ?_⟩
  rintro _ ⟨⟩
  refine ⟨?_, ?_⟩
  · rintro _ peer n ⟨⟩
    refine ⟨?_, ?_⟩
    · rintro session ⟨⟩
      exact ⟨nofun, nofun⟩
    · rintro (_ | m) ⟨session, ⟨⟩, _⟩
      rfl
  iterate 12
    rintro _ ⟨⟩
    refine ⟨nofun, ?_⟩
  rintro _ ⟨⟩
  refine ⟨?_, trivial⟩
  rintro _ peer n ⟨⟩
  refine ⟨?_, ?_⟩
  · rintro session ⟨⟩
    exact ⟨nofun, nofun⟩
  · -- The receive task of the expired session has finished.
    rintro (_ | _ | m) ⟨session, ⟨⟩, _, hcan | hmem⟩
    · exact absurd rfl hcan.2
    · cases hmem
    · rfl
    · rfl

/-- Two orders of the steps. In the first, the receive task of an expired session
removes and closes the open session that its peer has got since. In the second, the
receive task of a session is through before the session is inserted, which then stays
in the map with its tunnel closed. -/
theorem teardown_by_address :
    (∃ s after session closed, run (step 60) new
        [.packet 7, .create 0 true, .insert, .feed 0 true, .snapshot [0], .examine 61, .expireNext,
          .cleanupRemove, .cleanupClose, .receiveFails 0, .log 0, .packet 7, .create 62 true,
          .insert, .feed 62 true] = some s ∧
      s.sessions.get 7 = some 1 ∧ s.created[1]? = some session ∧ session.tunnelClosed = false ∧
      step 60 s (.removeEntry 0) = some after ∧ after.sessions.get 7 = none ∧
      after.created[1]? = some closed ∧ closed.tunnelClosed = true) ∧
    ∃ s session, run (step 60) (new : UdpForwarder Nat)
        [.packet 7, .create 0 true, .payload 0, .touch 0 0, .sendBack 0 false, .removeEntry 0,
          .insert, .feed 0 true, .finish 0] = some s ∧
      s.sessions.get 7 = some 0 ∧ s.created[0]? = some session ∧ session.tunnelClosed = true ∧
      session.receiveTask = .finished ∧ s.main = .waiting ∧ s.cleanup = .waiting :=
  ⟨⟨_, _, _, _, rfl, rfl, rfl, rfl, rfl, rfl, rfl, rfl⟩, _, _, rfl, rfl, rfl, rfl, rfl, rfl, rfl⟩

end UdpForwarder
end Hysteria.App
