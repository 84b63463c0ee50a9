import Hysteria.Core.TcpTunnelSafety

/-! A relay whose streams do not fail brings everything over: each direction ends for itself, a
bounded number of steps behind the end of what is sent to it. -/
namespace Hysteria.Core
open Lib

theorem Lane.Keeps.rank_eq {lane after : Lane} (h : lane.Keeps after) (hfinished : lane.source.finished) :
    after.rank = lane.rank := by
  unfold Lane.rank
  rw [(h.finished hfinished).2, h.copy]

theorem Lane.Step.finished_eq {lane after : Lane} (h : lane.Step after) :
    after.source.finished = lane.source.finished := by
  cases h <;> rfl

namespace TcpTunnel

inductive Direction where
  | up
  | down
deriving DecidableEq, Repr

def lane (t : TcpTunnel) : Direction → Lane
  | .up => t.stream.upward
  | .down => t.stream.downward

def Event.direction : Event → Option Direction
  | .server (.upward _) => some .up
  | .server (.downward _) => some .down
  | _ => none

def Event.isFailure : Event → Bool
  | .server (.fails _) => true
  | _ => false

def copyEvent (event : CopyEvent) : Direction → Event
  | .up => .server (.upward event)
  | .down => .server (.downward event)

def Relayed (x : TcpExchange) (t : TcpTunnel) : Prop :=
  t.stream.stage = .relaying ∨
    t.stream.Relays x ∧ ∃ result, t.stream.stage = .ended result ∧ ∀ direction, (t.lane direction).copy = .done

variable {x : TcpExchange} {t after : TcpTunnel} {event : Event}

/-- What an event is for a direction: a step of its copy, or one that leaves the copy where it is. -/
def Advances (event : Event) (t after : TcpTunnel) (direction : Direction) : Prop :=
  event.direction = some direction ∧ (t.lane direction).Step (after.lane direction) ∨
    event.direction ≠ some direction ∧ (t.lane direction).Keeps (after.lane direction)

theorem advances_of_keeps (hkeeps : t.stream.Keeps after.stream) (hnone : event.direction = none)
    (direction : Direction) : Advances event t after direction := by
  refine .inr ⟨by simp [hnone], ?_⟩
  cases direction with
  | up => exact hkeeps.upward
  | down => exact hkeeps.downward

theorem relayed_of_keeps (h : Relayed x t) (hkeeps : t.stream.Keeps after.stream) : Relayed x after := by
  rcases h with hrelaying | ⟨hrelays, result, hended, hdone⟩
  · exact .inl (hkeeps.stage.trans hrelaying)
  · refine .inr ⟨hrelays.of_keeps hkeeps.same hkeeps.upward hkeeps.downward, result, hkeeps.stage.trans hended,
      fun direction => ?_⟩
    cases direction with
    | up => exact hkeeps.upward.copy.trans (hdone .up)
    | down => exact hkeeps.downward.copy.trans (hdone .down)

theorem relay_kept (h : Relayed x t) (hkeeps : t.stream.Keeps after.stream) (hnone : event.direction = none) :
    Relayed x after ∧ ∀ direction, Advances event t after direction :=
  ⟨relayed_of_keeps h hkeeps, advances_of_keeps hkeeps hnone⟩

theorem server_step (hinv : Inv x t) (h : Relayed x t) {event : ServedStream.Event} {stream : ServedStream}
    (hstep : t.stream.step x.config event = some stream) (hsound : (Event.server event).isFailure = false) :
    Relayed x { t with stream } ∧ ∀ direction, Advances (.server event) t { t with stream } direction := by
  have hstage : t.stream.stage = .relaying ∨ ∃ result, t.stream.stage = .ended result :=
    h.imp_right fun ⟨_, result, hended, _⟩ => ⟨result, hended⟩
  cases event with
  | reads => rcases hstage with hstage | ⟨result, hstage⟩ <;> simp [ServedStream.step, hstage] at hstep
  | dials result => rcases hstage with hstage | ⟨ended, hstage⟩ <;> simp [ServedStream.step, hstage] at hstep
  | writes n => rcases hstage with hstage | ⟨result, hstage⟩ <;> simp [ServedStream.step, hstage] at hstep
  | upward copied =>
    obtain ⟨hrelaying, hmapped⟩ := Option.ite_none_right_eq_some.mp hstep
    obtain ⟨lane, hlane, rfl⟩ := Option.map_eq_some_iff.mp hmapped
    refine ⟨.inl hrelaying, fun direction => ?_⟩
    cases direction with
    | up => exact .inl ⟨rfl, Lane.step_cases hlane⟩
    | down => exact .inr ⟨by simp [Event.direction], .refl _⟩
  | downward copied =>
    obtain ⟨hrelaying, hmapped⟩ := Option.ite_none_right_eq_some.mp hstep
    obtain ⟨lane, hlane, rfl⟩ := Option.map_eq_some_iff.mp hmapped
    refine ⟨.inl hrelaying, fun direction => ?_⟩
    cases direction with
    | up => exact .inr ⟨by simp [Event.direction], .refl _⟩
    | down => exact .inl ⟨rfl, Lane.step_cases hlane⟩
  | returns =>
    obtain ⟨⟨hrelaying, hup, hdown⟩, ⟨⟩⟩ := Option.ite_none_right_eq_some.mp hstep
    have hrelays : t.stream.Relays x := hinv.stream.stage hrelaying
    have hclosed := hrelays.of_keeps (t.stream.same_close (.ok ())) t.stream.upward.keeps_close
      t.stream.downward.keeps_close
    refine ⟨.inr ⟨hclosed, _, rfl, fun direction => ?_⟩, fun direction => .inr ⟨by simp [Event.direction], ?_⟩⟩
    · cases direction with
      | up => exact hup
      | down => exact hdown
    · cases direction with
      | up => exact t.stream.upward.keeps_close
      | down => exact t.stream.downward.keeps_close
  | fails text => cases hsound
  | remoteWrites bytes =>
    obtain ⟨⟨-, hunfinished⟩, ⟨⟩⟩ := Option.ite_none_right_eq_some.mp hstep
    exact relay_kept h ⟨rfl, ⟨rfl, rfl⟩, .refl _, Lane.keeps_write hunfinished bytes⟩ rfl
  | remoteShutsDown =>
    obtain ⟨-, ⟨⟩⟩ := Option.ite_none_right_eq_some.mp hstep
    exact relay_kept h ⟨rfl, ⟨rfl, rfl⟩, .refl _, t.stream.downward.keeps_finish⟩ rfl
  | remoteReads n =>
    cases hstep
    exact relay_kept h ⟨rfl, ⟨rfl, rfl⟩, t.stream.upward.keeps_read n, .refl _⟩ rfl

theorem relay_step (hinv : Inv x t) (h : Relayed x t) (hstep : t.step x event = some after)
    (hsound : event.isFailure = false) : Relayed x after ∧ ∀ direction, Advances event t after direction := by
  obtain ⟨hcaller, hstep⟩ | ⟨e, stream, rfl, hstream, rfl⟩ := step_cases hstep
  · have hnone : event.direction = none := by
      cases event with
      | server e => exact absurd rfl (hcaller e)
      | _ => rfl
    exact relay_kept h (hinv.callerStep hstep).2 hnone
  · exact server_step hinv h hstream hsound

/-- While the relay goes on, every step of a copy lowers its rank, and nobody raises it. -/
theorem rank_of_run {direction : Direction} {events : List Event} (hinv : Inv x t) (h : Relayed x t)
    (hfinished : (t.lane direction).source.finished) (hsound : ∀ event ∈ events, event.isFailure = false)
    (hrun : run (step x) t events = some after) :
    Inv x after ∧ Relayed x after ∧ (after.lane direction).source.finished ∧
      (after.lane direction).rank + events.countP (·.direction = some direction) ≤ (t.lane direction).rank := by
  induction events generalizing t with
  | nil =>
    cases hrun
    exact ⟨hinv, h, hfinished, Nat.le_refl _⟩
  | cons event events ih =>
    obtain ⟨next, hstep, hrest⟩ := run_cons.mp hrun
    obtain ⟨hrelayed, hadvances⟩ := relay_step hinv h hstep (hsound event List.mem_cons_self)
    have hsound' := fun e he => hsound e (List.mem_cons_of_mem _ he)
    rcases hadvances direction with ⟨hdirection, hlane⟩ | ⟨hdirection, hkeeps⟩
    · obtain ⟨hinv', hrelayed', hfinished', hrank⟩ :=
        ih (hinv.step hstep) hrelayed (hlane.finished_eq.trans hfinished) hsound' hrest
      have hlt := Lane.rank_lt hlane
      refine ⟨hinv', hrelayed', hfinished', ?_⟩
      rw [List.countP_cons_of_pos (by simp [hdirection])]
      omega
    · obtain ⟨hinv', hrelayed', hfinished', hrank⟩ :=
        ih (hinv.step hstep) hrelayed (hkeeps.finished hfinished).1 hsound' hrest
      refine ⟨hinv', hrelayed', hfinished', ?_⟩
      rw [List.countP_cons_of_neg (by simp [hdirection]), ← hkeeps.rank_eq hfinished]
      exact hrank

theorem done_of_stuck {direction : Direction} (h : Relayed x t) (hfinished : (t.lane direction).source.finished)
    (hstuck : ∀ event, t.step x (copyEvent event direction) = none) : (t.lane direction).copy = .done := by
  rcases h with hrelaying | ⟨-, result, -, hdone⟩
  · by_contra hrunning
    obtain ⟨event, lane, hlane⟩ := Lane.exists_step hfinished hrunning
    have hnone := hstuck event
    cases direction with
    | up =>
      change t.stream.upward.step event = some lane at hlane
      simp [copyEvent, step, ServedStream.step, hrelaying, hlane] at hnone
    | down =>
      change t.stream.downward.step event = some lane at hlane
      simp [copyEvent, step, ServedStream.step, hrelaying, hlane] at hnone
  · exact hdone direction

theorem relays_of_relayed (hinv : Inv x t) (h : Relayed x t) : t.stream.Relays x := by
  rcases h with hrelaying | ⟨hrelays, -⟩
  · exact hinv.stream.stage hrelaying
  · exact hrelays

theorem sent_of_relays (hinv : Inv x t) (h : t.stream.Relays x) :
    t.stream.upward.source.sent = x.frame ++ t.caller.written := by
  obtain ⟨copied, htaken, -⟩ := h.upward.copied
  have hframe : x.frame <+: t.stream.upward.source.sent := by
    refine List.IsPrefix.trans ⟨copied ++ t.stream.upward.copy.rest, ?_⟩ t.stream.upward.source.taken_isPrefix
    rw [htaken, List.append_assoc]
  -- A client that is not connected has sent no more than the request.
  have hall : t.stream.upward.source.sent <+: x.frame → t.stream.upward.source.sent = x.frame ++ [] := by
    intro hle
    rw [hle.eq_of_length (Nat.le_antisymm hle.length_le hframe.length_le), List.append_nil]
  have hcaller := hinv.caller
  unfold TcpCaller.written
  match hstate : t.caller with
  | .connected written received =>
    rw [hstate] at hcaller
    exact hcaller.1
  | .requesting unsent =>
    rw [hstate] at hcaller
    exact hall ⟨unsent, hcaller.1⟩
  | .failed err =>
    rw [hstate] at hcaller
    exact hall hcaller

/-- Once a side has shut down its direction of a relay, the copy of this direction takes a bounded
number of steps, whatever the other direction does. When it cannot take another one, everything
that was sent has been written to the other side, which has been shut down behind it. -/
theorem relay_delivers (x : TcpExchange) {events later : List Event} {t after : TcpTunnel}
    (h : runs x events = some t) (hrelaying : t.stream.stage = .relaying) (hrun : run (step x) t later = some after)
    (hsound : ∀ event ∈ later, event.isFailure = false) :
    (t.stream.upward.source.finished →
      later.countP (·.direction = some .up) ≤ t.stream.upward.rank ∧
      ((∀ event, after.step x (.server (.upward event)) = none) →
        after.stream.upward.sink.sent = after.caller.written ∧ after.stream.upward.sink.finished)) ∧
    (t.stream.downward.source.finished →
      later.countP (·.direction = some .down) ≤ t.stream.downward.rank ∧
      ((∀ event, after.step x (.server (.downward event)) = none) →
        after.stream.downward.sink.sent = x.accept ++ after.stream.downward.source.sent ∧
        after.stream.downward.sink.finished ∧
        ∀ written received, after.caller = .connected written received → after.stream.downward.sink.pending = [] →
          received = after.stream.downward.source.sent)) := by
  have hinv := inv_of_runs h
  constructor
  · intro hfinished
    obtain ⟨hinv', hrelayed, hfinished', hrank⟩ := @rank_of_run x t after .up later hinv (.inl hrelaying) hfinished
      hsound hrun
    refine ⟨Nat.le_trans (Nat.le_add_left _ _) hrank, fun hstuck => ?_⟩
    have hrelays := relays_of_relayed hinv' hrelayed
    exact hrelays.upward.sent_of_done (@done_of_stuck x after .up hrelayed hfinished' hstuck)
      (sent_of_relays hinv' hrelays)
  · intro hfinished
    obtain ⟨hinv', hrelayed, hfinished', hrank⟩ := @rank_of_run x t after .down later hinv (.inl hrelaying) hfinished
      hsound hrun
    refine ⟨Nat.le_trans (Nat.le_add_left _ _) hrank, fun hstuck => ?_⟩
    have hrelays := relays_of_relayed hinv' hrelayed
    obtain ⟨hsent, hclosed⟩ := hrelays.downward.sent_of_done (@done_of_stuck x after .down hrelayed hfinished' hstuck)
      (List.nil_append _).symm
    refine ⟨hsent, hclosed, fun written received hconnected hread => ?_⟩
    have hcaller := hinv'.caller
    rw [hconnected] at hcaller
    apply @List.append_cancel_left _ x.accept
    rw [← hcaller.2, ← hsent, ← after.stream.downward.sink.taken_append_pending, hread, List.append_nil]

def halfClosed : List Event := halfway ++ [.appShutsDown]

def draining : List Event :=
  [.server (.upward (.write 1)), .server (.remoteWrites [33]), .server (.upward .shutdown)]

theorem relay_delivers_halfClosed :
    ∃ t after, runs sampleExchange halfClosed = some t ∧ run (step sampleExchange) t draining = some after ∧
      draining.countP (·.direction = some .up) ≤ t.stream.upward.rank ∧
      ((∀ event, after.step sampleExchange (.server (.upward event)) = none) →
        after.stream.upward.sink.sent = after.caller.written ∧ after.stream.upward.sink.finished) := by
  have hruns : ((runs sampleExchange halfClosed).bind fun t => (run (step sampleExchange) t draining).map fun _ =>
      (t.stream.stage, t.stream.upward.source.finished)) = some (.relaying, true) := by decide +kernel
  obtain ⟨t, ht, hmore⟩ := Option.bind_eq_some_iff.mp hruns
  obtain ⟨after, hafter, hstate⟩ := Option.map_eq_some_iff.mp hmore
  obtain ⟨hrelaying, hfinished⟩ := Prod.mk.inj hstate
  have hsound : ∀ event ∈ draining, event.isFailure = false := by simp [draining, Event.isFailure]
  exact ⟨t, after, ht, hafter, (relay_delivers sampleExchange ht hrelaying hafter hsound).1 hfinished⟩

end TcpTunnel
end Hysteria.Core
