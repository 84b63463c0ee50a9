import Hysteria.Core.TcpTunnelSafety

/-! `run_client_health_check` against the server that it checks. -/
namespace Hysteria.Core
open Lib

/-- The last step of `run_client_health_check`, with the stream read to its end. -/
def healthVerdict (response : List UInt8) : Except CoreError Unit :=
  if response ≠ healthCheckResponse then .error (.dial "unexpected healthcheck response") else .ok ()

theorem healthVerdict_eq_ok {response : List UInt8} (h : healthVerdict response = .ok ()) :
    response = healthCheckResponse := by
  by_contra hne
  rw [healthVerdict, if_pos hne] at h
  cases h

namespace ServedStream
variable {x : TcpExchange} {s : ServedStream}

theorem not_plain (hhealth : isHealthcheckRequest x.addr) : ¬ x.Plain := by
  rintro ⟨hnot, -⟩
  rw [hhealth] at hnot
  cases hnot

theorem not_relayed (hhealth : isHealthcheckRequest x.addr) : ¬ (s.Granted x .relay ∨ s.Granted x .speedTest) := by
  rintro (⟨-, -, hplain⟩ | ⟨-, -, hnot, -⟩)
  · exact not_plain hhealth hplain
  · rw [hhealth] at hnot
    cases hnot

theorem Done.unconnected (h : s.Done x) (hhealth : isHealthcheckRequest x.addr) :
    s.dialed = [] ∧ s.remote = none ∧ s.upward.sink.sent = [] := by
  have hunconnected : s.Unconnected x → s.dialed = [] ∧ s.remote = none := fun ⟨hremote, hdialed⟩ =>
    ⟨hdialed.resolve_right fun hplain => not_plain hhealth hplain.2, hremote⟩
  cases h with
  | silent sent _ unconnected =>
    obtain ⟨hdialed, hremote⟩ := hunconnected unconnected
    exact ⟨hdialed, hremote, sent⟩
  | @said unsent next sent saying =>
    cases next with
    | refuse err =>
      obtain ⟨hdialed, hremote⟩ := hunconnected saying.1
      exact ⟨hdialed, hremote, sent⟩
    | healthCheck => exact ⟨saying.1.1, saying.1.2.1, sent⟩
    | relay => exact absurd (.inl saying.1) (not_relayed hhealth)
    | speedTest => exact absurd (.inr saying.1) (not_relayed hhealth)
  | replied replies => exact ⟨replies.granted.1, replies.granted.2.1, replies.sent⟩
  | relayed relays => exact absurd relays.granted (not_relayed hhealth)

end ServedStream

namespace TcpTunnel
variable {x : TcpExchange} {t : TcpTunnel}

theorem written_of_replies (h : Inv x t) {payload unsent : List UInt8} (hreplies : t.stream.Replies x payload unsent)
    (hpayload : payload ≠ []) : t.caller.written = payload := by
  have hsent : t.stream.upward.source.sent = x.frame ++ payload := by
    rw [← t.stream.upward.source.taken_append_pending, hreplies.finished.pending, hreplies.finished.taken,
      List.append_nil]
  -- Without a stream the client has sent nothing behind its request.
  have hnone : ¬ t.stream.upward.source.sent <+: x.frame := by
    intro hle
    have hlength := hle.length_le
    have hpos := List.length_pos_iff.mpr hpayload
    rw [hsent, List.length_append] at hlength
    omega
  have hcaller := h.caller
  match hstate : t.caller with
  | .connected written received =>
    rw [hstate] at hcaller
    exact List.append_cancel_left (hcaller.1.symm.trans hsent)
  | .requesting left =>
    rw [hstate] at hcaller
    exact absurd ⟨left, hcaller.1⟩ hnone
  | .failed err =>
    rw [hstate] at hcaller
    exact absurd hcaller hnone

/-- A health check is answered by the server itself: it dials nothing. Its task returns without an
error only behind a client that has sent `ping` and nothing else, with the whole `pong` written and the
stream finished; and a client finds the server healthy only if it has sent `ping` and nothing else. -/
theorem health_checked (x : TcpExchange) (hhealth : isHealthcheckRequest x.addr) {events : List Event} {t : TcpTunnel}
    (h : runs x events = some t) :
    t.stream.dialed = [] ∧ t.stream.remote = none ∧ t.stream.upward.sink.sent = [] ∧
    (t.stream.stage = .ended (.ok ()) → t.caller.written = healthCheckRequest ∧ t.stream.upward.source.finished ∧
      t.stream.downward.sink.sent = x.accept ++ healthCheckResponse) ∧
    ∀ written received, t.caller = .connected written received → healthVerdict received = .ok () →
      written = healthCheckRequest := by
  have hinv := inv_of_runs h
  obtain ⟨hdialed, hremote, hsent⟩ := hinv.stream.done.unconnected hhealth
  refine ⟨hdialed, hremote, hsent, ?_, ?_⟩
  · intro hended
    obtain ⟨-, hcomplete⟩ := hinv.stream.stage hended
    rcases hcomplete rfl with hreplies | hrelays
    · refine ⟨written_of_replies hinv hreplies (by decide), hreplies.finished.finished, ?_⟩
      rw [← List.append_nil t.stream.downward.sink.sent, hreplies.said]
      rfl
    · exact absurd hrelays.granted (ServedStream.not_relayed hhealth)
  · intro written received hconnected hverdict
    obtain rfl := healthVerdict_eq_ok hverdict
    obtain ⟨hgranted, -⟩ | ⟨-, hreply⟩ := received_isPrefix hinv hconnected
    · exact absurd hgranted (ServedStream.not_relayed hhealth)
    · by_contra hne
      rw [healthReply, if_pos hne] at hreply
      revert hreply
      decide +kernel

def healthExchange : TcpExchange where
  addr := "@HealthCheck:0"
  requestPadding := String.ofList (List.replicate 65 'h')
  config := ⟨false, String.ofList (List.replicate 129 'c'), by decide +kernel⟩
  fits := by decide +kernel
  draws := by decide +kernel

def healthy : List Event :=
  [.callerWrites 84, .server .reads, .server (.writes 142), .callerReads, .appWrites healthCheckRequest, .appShutsDown,
    .server .reads, .server (.writes 4), .appReads 64]

theorem health_checked_healthy :
    ∃ t, runs healthExchange healthy = some t ∧ healthVerdict t.caller.received = .ok () ∧
      t.caller.written = healthCheckRequest ∧ t.stream.dialed = [] := by
  have hruns : (runs healthExchange healthy).map (fun t => (t.caller, t.stream.stage)) =
      some (.connected healthCheckRequest healthCheckResponse, .ended (.ok ())) := by decide +kernel
  obtain ⟨t, ht, hstate⟩ := Option.map_eq_some_iff.mp hruns
  obtain ⟨hcaller, hended⟩ := Prod.mk.inj hstate
  obtain ⟨hdialed, -, -, hok, -⟩ := health_checked healthExchange (by decide +kernel) ht
  exact ⟨t, ht, by rw [hcaller]; rfl, (hok hended).1, hdialed⟩

end TcpTunnel
end Hysteria.Core
