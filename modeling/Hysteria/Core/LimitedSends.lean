import Hysteria.Core.Frag
import Hysteria.Core.Limiter
import Hysteria.Lib.Table
import Hysteria.Lib.Transition

/-! The writers that share a limiter: proxied streams (`TcpProxyStream::poll_write`) and
senders of UDP messages (`send_udp_message`). Each takes its budget first and learns
afterwards what became of the write; in between the others go on. -/
namespace Hysteria.Core
open Lib

inductive PollWrite where
  | pending
  | ready (written : Nat)
  | error
deriving DecidableEq, Repr

def PollWrite.accepted : PollWrite → Nat
  | .ready written => written
  | .pending | .error => 0

/-- What `send_datagram` returns. With `tooLarge` come the datagram size of the connection
at that moment and the random packet id of the fragments. -/
inductive SendResult where
  | ok
  | tooLarge (maxSize : Nat) (packetId : UInt16)
  | error
deriving DecidableEq, Repr

def SendResult.accepted (size : Nat) : SendResult → Nat
  | .ok => size
  | .tooLarge .. | .error => 0

/-- A stream between two calls of `poll_write`, or inside one with the bytes it offers. -/
inductive Writer where
  | idle
  | sleeping
  | writing (offered : Nat)
deriving DecidableEq, Repr

/-- `send_single_udp_message` for one message. Serialized into a buffer of that length, a
message takes `size` bytes. `rest` are the fragments to be sent after it; only the whole
message may still be fragmented. -/
structure Sending where
  message : UDPMessage
  rest : List UDPMessage
  whole : Bool

inductive Sender where
  | idle
  | waiting (current : Sending)
  | sending (current : Sending)

def Writer.held : Writer → Nat
  | .writing offered => offered
  | .idle | .sleeping => 0

def Sender.held : Sender → Nat
  | .sending current => current.message.size
  | .idle | .waiting _ => 0

def Writer.decided : LimitDecision → Writer
  | .ready granted => .writing granted
  | .wait _ => .sleeping

def Sender.decided (current : Sending) : LimitDecision → Sender
  | .ready _ => .sending current
  | .wait _ => .waiting current

def Sender.next : List UDPMessage → Sender
  | [] => .idle
  | message :: rest => .waiting { message, rest, whole := false }

def Sending.returned (profile : Profile) (current : Sending) : SendResult → Sender
  | .ok => .next current.rest
  | .error => .idle
  | .tooLarge maxSize packetId =>
    if !current.whole then .idle
    else if maxSize ≤ current.message.headerSize then .idle
    else
      let fragmented := { current.message with packetId := max packetId 1 }
      match (fragUdpMessage profile fragmented maxSize : Exec Unit (List UDPMessage)) with
      | .ok fragments => .next fragments
      | .error _ => .idle

/-- `accepted` counts the bytes the connection has taken. -/
structure Sends where
  limiter : BandwidthLimiter
  writers : List Writer
  senders : List Sender
  accepted : Nat

inductive SendEvent where
  | pollWrite (w : Nat) (requested elapsed : Nat)
  | written (w : Nat) (result : PollWrite)
  | sendMessage (n : Nat) (message : UDPMessage)
  | waitFor (n : Nat) (elapsed : Nat)
  | sendDatagram (n : Nat) (result : SendResult)

namespace Sends

def new (rateBytesPerSec writers senders : Nat) : Sends where
  limiter := .new rateBytesPerSec
  writers := List.replicate writers .idle
  senders := List.replicate senders .idle
  accepted := 0

/-- The budget that is held for writes whose outcome is still open. -/
def inFlight (s : Sends) : Nat := (s.writers.map Writer.held).sum + (s.senders.map Sender.held).sum

def step (profile : Profile) (s : Sends) : SendEvent → Option Sends
  | .pollWrite w requested elapsed =>
    match s.writers[w]? with
    | some (.writing _) | none => none
    | some _ =>
      let taken := s.limiter.takeStreamBudget elapsed requested
      some { s with limiter := taken.1, writers := s.writers.set w (.decided taken.2) }
  | .written w result =>
    match s.writers[w]? with
    | some (.writing offered) =>
      if result.accepted ≤ offered then
        some { s with writers := s.writers.set w .idle, accepted := s.accepted + result.accepted }
      else none
    | _ => none
  | .sendMessage n message =>
    match s.senders[n]? with
    | some .idle =>
      some { s with senders := s.senders.set n (.waiting { message, rest := [], whole := true }) }
    | _ => none
  | .waitFor n elapsed =>
    match s.senders[n]? with
    | some (.waiting current) =>
      let taken := s.limiter.waitFor elapsed current.message.size
      some { s with limiter := taken.1, senders := s.senders.set n (.decided current taken.2) }
    | _ => none
  | .sendDatagram n result =>
    match s.senders[n]? with
    | some (.sending current) => some { s with
        senders := s.senders.set n (current.returned profile result)
        accepted := s.accepted + result.accepted current.message.size }
    | _ => none

def AcceptsAll (s : Sends) : SendEvent → Prop
  | .written w result => ∀ offered, s.writers[w]? = some (.writing offered) → result.accepted = offered
  | .sendDatagram n result => ∀ current, s.senders[n]? = some (.sending current) → result = .ok
  | _ => True

theorem held_decided_writer (decision : LimitDecision) :
    (Writer.decided decision).held = decision.granted := by
  cases decision <;> rfl

theorem held_next (fragments : List UDPMessage) : (Sender.next fragments).held = 0 := by
  cases fragments <;> rfl

theorem held_returned (profile : Profile) (current : Sending) (result : SendResult) :
    (current.returned profile result).held = 0 := by
  unfold Sending.returned
  split
  · exact held_next current.rest
  · rfl
  · split_ifs
    · rfl
    · rfl
    · dsimp only
      split
      · exact held_next _
      · rfl

theorem size_pos (message : UDPMessage) : 0 < message.size := by
  unfold UDPMessage.size UDPMessage.headerSize
  omega

/-- What a step debits and does not hand on to the connection or keep for it is lost. -/
def Balanced (s after : Sends) (lost : Nat) : Prop :=
  after.limiter.debited + (s.accepted + s.inFlight) =
    s.limiter.debited + (after.accepted + after.inFlight) + lost

theorem balanced_writer {s : Sends} {w : Nat} {old new : Writer} {limiter : BandwidthLimiter}
    (hw : s.writers[w]? = some old) (accepted lost : Nat)
    (h : limiter.debited + old.held = s.limiter.debited + accepted + new.held + lost) :
    Balanced s { s with
      limiter
      writers := s.writers.set w new
      accepted := s.accepted + accepted } lost := by
  have hsum := sum_map_set Writer.held hw new
  simp only [Balanced, inFlight]
  omega

theorem balanced_sender {s : Sends} {n : Nat} {old new : Sender} {limiter : BandwidthLimiter}
    (hn : s.senders[n]? = some old) (accepted lost : Nat)
    (h : limiter.debited + old.held = s.limiter.debited + accepted + new.held + lost) :
    Balanced s { s with
      limiter
      senders := s.senders.set n new
      accepted := s.accepted + accepted } lost := by
  have hsum := sum_map_set Sender.held hn new
  simp only [Balanced, inFlight]
  omega

theorem held_decided_sender {limiter : BandwidthLimiter} {elapsed : Nat} {current : Sending} :
    (Sender.decided current (limiter.waitFor elapsed current.message.size).2).held =
      (limiter.waitFor elapsed current.message.size).2.granted := by
  cases hdecision : (limiter.waitFor elapsed current.message.size).2 with
  | ready granted =>
    rw [BandwidthLimiter.waitFor_granted hdecision]
    rfl
  | wait seconds => rfl

theorem step_balanced {profile : Profile} {s after : Sends} {event : SendEvent}
    (h : s.step profile event = some after) :
    ∃ lost, Balanced s after lost ∧ (lost = 0 ↔ s.AcceptsAll event) := by
  unfold step at h
  split at h
  · next w requested elapsed =>
    have hdebited := s.limiter.takeStreamBudget_debited elapsed requested
    split at h
    · cases h
    · cases h
    · next old hbusy hw =>
      obtain rfl := Option.some.inj h
      have hold : old.held = 0 := by
        cases old with
        | writing offered => exact absurd rfl (hbusy offered)
        | idle | sleeping => rfl
      refine ⟨0, balanced_writer hw 0 0 ?_, iff_of_true rfl trivial⟩
      rw [hold, held_decided_writer]
      omega
  · next w result =>
    split at h
    · next offered hw =>
      split at h
      · next hle =>
        obtain rfl := Option.some.inj h
        refine ⟨offered - result.accepted, balanced_writer hw _ _ ?_, ?_⟩
        · simp only [Writer.held]
          omega
        · constructor
          · intro hzero offered' hoffered
            cases hw.symm.trans hoffered
            omega
          · intro hall
            rw [hall offered hw]
            exact Nat.sub_self offered
      · cases h
    · cases h
  · next n message =>
    split at h
    · next hn =>
      obtain rfl := Option.some.inj h
      exact ⟨0, balanced_sender hn 0 0 rfl, iff_of_true rfl trivial⟩
    · cases h
  · next n elapsed =>
    split at h
    · next current hn =>
      have hdebited := s.limiter.waitFor_debited elapsed current.message.size
      obtain rfl := Option.some.inj h
      refine ⟨0, balanced_sender hn 0 0 ?_, iff_of_true rfl trivial⟩
      rw [held_decided_sender]
      simp only [Sender.held]
      omega
    · cases h
  · next n result =>
    split at h
    · next current hn =>
      obtain rfl := Option.some.inj h
      have hpos := size_pos current.message
      refine ⟨current.message.size - result.accepted current.message.size,
        balanced_sender hn _ _ ?_, ?_⟩
      · rw [held_returned]
        cases result <;> simp only [Sender.held, SendResult.accepted] <;> omega
      · constructor
        · intro hzero current' hcurrent
          cases hn.symm.trans hcurrent
          cases result with
          | ok => rfl
          | tooLarge | error =>
            simp only [SendResult.accepted] at hzero
            omega
        · intro hall
          rw [hall current hn]
          exact Nat.sub_self _
    · cases h

theorem run_balanced {profile : Profile} {s t : Sends} {events : List SendEvent}
    (h : run (step profile) s events = some t) :
    ∃ lost, Balanced s t lost ∧
      (lost = 0 ↔ Along (step profile) (fun s event _ => s.AcceptsAll event) s events) := by
  induction events generalizing s with
  | nil =>
    cases h
    exact ⟨0, rfl, iff_of_true rfl trivial⟩
  | cons event events ih =>
    obtain ⟨next, hstep, hrest⟩ := run_cons.mp h
    obtain ⟨now, hnow, hnowIff⟩ := step_balanced hstep
    obtain ⟨later, hlater, hlaterIff⟩ := ih hrest
    refine ⟨now + later, ?_, ?_⟩
    · simp only [Balanced] at hnow hlater ⊢
      omega
    · rw [Nat.add_eq_zero_iff, hnowIff, hlaterIff]
      constructor
      · rintro ⟨hall, halong⟩ after hafter
        cases hstep.symm.trans hafter
        exact ⟨hall, halong⟩
      · intro halong
        exact halong next hstep

/-- In every run the connection has taken no more than was debited, apart from what is
still held for open writes; and the two are equal exactly when the connection took all it
was offered in every write. -/
theorem debited_eq_accepted_iff (profile : Profile) (rateBytesPerSec writers senders : Nat)
    (events : List SendEvent) {s : Sends}
    (hrun : run (step profile) (new rateBytesPerSec writers senders) events = some s) :
    s.accepted + s.inFlight ≤ s.limiter.debited ∧
      (s.limiter.debited = s.accepted + s.inFlight ↔
        Along (step profile) (fun s event _ => s.AcceptsAll event)
          (new rateBytesPerSec writers senders) events) := by
  obtain ⟨lost, hbalanced, hlost⟩ := run_balanced hrun
  have hnew : (new rateBytesPerSec writers senders).inFlight = 0 := by
    simp [inFlight, new, Writer.held, Sender.held]
  have hdebited : (new rateBytesPerSec writers senders).limiter.debited = 0 := rfl
  have haccepted : (new rateBytesPerSec writers senders).accepted = 0 := rfl
  simp only [Balanced] at hbalanced
  refine ⟨by omega, ?_⟩
  rw [← hlost]
  omega

def query : UDPMessage := ⟨1, 0, 0, 1, "a", [1, 2, 3]⟩

def taken : List SendEvent :=
  [.pollWrite 0 10 0, .written 0 (.ready 10), .sendMessage 0 query, .waitFor 0 0,
    .sendDatagram 0 .ok]

theorem isSome_taken : (run (step ⟨true⟩) (new 1000000 1 1) taken).isSome := by decide +kernel

theorem debited_eq_accepted_taken :
    ∃ s, run (step ⟨true⟩) (new 1000000 1 1) taken = some s ∧ s.limiter.debited = 23 ∧
      s.accepted = 23 ∧ s.inFlight = 0 ∧
      Along (step ⟨true⟩) (fun s event _ => s.AcceptsAll event) (new 1000000 1 1) taken := by
  have hrun := (Option.some_get isSome_taken).symm
  refine ⟨_, hrun, by decide +kernel, by decide +kernel, by decide +kernel, ?_⟩
  apply (debited_eq_accepted_iff ⟨true⟩ 1000000 1 1 taken hrun).2.mp
  decide +kernel

def totals (events : List SendEvent) : Option (Nat × Nat) :=
  (run (step ⟨true⟩) (new 1000000 1 1) events).bind fun s =>
    if s.inFlight = 0 then some (s.limiter.debited, s.accepted) else none

/-- A write that the stream puts off costs its budget all the same, and so does a message
that turns out too large: its 13 bytes are debited in vain before its fragments of 12 and
11 bytes. -/
theorem unaccepted_debited :
    totals [.pollWrite 0 10 0, .written 0 .pending] = some (10, 0) ∧
      totals [.sendMessage 0 query, .waitFor 0 0, .sendDatagram 0 (.tooLarge 12 5), .waitFor 0 0,
        .sendDatagram 0 .ok, .waitFor 0 0, .sendDatagram 0 .ok] = some (36, 23) := by
  decide +kernel

end Sends
end Hysteria.Core
