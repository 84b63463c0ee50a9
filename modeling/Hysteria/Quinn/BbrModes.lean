import Hysteria.Quinn.BbrSteps

/-! How the controller paces in each mode, the floor of its window, and how long a probe of the round
trip lasts, over whole runs of the connection's calls. -/
namespace Hysteria.Quinn
open Lib

namespace Phase
variable {p p' : Phase}

/-- The gains of a mode, and which modes need the full bandwidth. While the cycle stands in one of its
phases of gain one, the gain of the phase that drains may still be held. -/
structure Sound (p : Phase) : Prop where
  startup : p.mode = .startup → p.pacingGain = p.highGain
  drain : p.mode = .drain → p.isAtFullBandwidth ∧ p.pacingGain = p.drainGain
  probeBw : p.mode = .probeBw → p.isAtFullBandwidth ∧
    (p.pacingGain = pacingGainCycle p.currentCycleOffset ∨ p.pacingGain = 3 / 4 ∧ 1 < p.currentCycleOffset.val)
  probeRtt : p.mode = .probeRtt → p.pacingGain = 1
  cwndGain : p.cwndGain = derivedHighCwndGain ∧ p.highCwndGain = derivedHighCwndGain

theorem one_lt_of_cycle : ∀ offset : Fin 8, |pacingGainCycle offset - 1| < singleEpsilon → 1 < offset.val := by
  decide +kernel

theorem eq_drain_of_cycle : ∀ offset : Fin 8, pacingGainCycle offset < 1 → pacingGainCycle offset = 3 / 4 := by
  decide +kernel

theorem Sound.step (h : p.Sound) (hstep : p.Step p') : p'.Sound := by
  cases hstep with
  | saturate => exact ⟨h.startup, fun hmode => ⟨rfl, (h.drain hmode).2⟩, fun hmode => ⟨rfl, (h.probeBw hmode).2⟩,
      h.probeRtt, h.cwndGain⟩
  | drain hmode hfull => exact ⟨nofun, fun _ => ⟨hfull, rfl⟩, nofun, nofun, h.cwndGain.2, h.cwndGain.2⟩
  | cruise draw hmode =>
    have hfull : p.isAtFullBandwidth := hmode.elim (fun hdrain => (h.drain hdrain).1) And.right
    exact ⟨nofun, nofun, fun _ => ⟨hfull, .inl rfl⟩, nofun, rfl, h.cwndGain.2⟩
  | advance hmode =>
    refine ⟨fun hother => ?_, fun hother => ?_, fun _ => ⟨(h.probeBw hmode).1, .inl rfl⟩, fun hother => ?_, h.cwndGain⟩
    all_goals cases hmode.symm.trans hother
  | hold hmode hdrains hnext =>
    have hgain : p.pacingGain = 3 / 4 := (h.probeBw hmode).2.elim
      (fun hcycle => hcycle.trans (eq_drain_of_cycle _ (hcycle ▸ hdrains))) And.left
    refine ⟨fun hother => ?_, fun hother => ?_,
      fun _ => ⟨(h.probeBw hmode).1, .inr ⟨hgain, one_lt_of_cycle _ hnext⟩⟩, fun hother => ?_, h.cwndGain⟩
    all_goals cases hmode.symm.trans hother
  | probe hmode => exact ⟨nofun, nofun, nofun, fun _ => rfl, h.cwndGain⟩
  | restart hmode hfull => exact ⟨fun _ => rfl, nofun, nofun, nofun, h.cwndGain.2, h.cwndGain.2⟩

theorem Sound.moves (h : p.Sound) (hmoves : p.Moves p') : p'.Sound := by
  induction hmoves with
  | refl => exact h
  | tail _ hstep ih => exact ih.step hstep

theorem Moves.fixed (h : p.Moves p') :
    p'.highGain = p.highGain ∧ p'.drainGain = p.drainGain ∧ (p.isAtFullBandwidth → p'.isAtFullBandwidth) := by
  induction h with
  | refl => exact ⟨rfl, rfl, id⟩
  | tail _ hstep ih =>
    cases hstep with
    | saturate => exact ⟨ih.1, ih.2.1, fun _ => rfl⟩
    | _ => exact ih

end Phase

namespace Bbr
variable {profile : Profile} {rounding : Rounding} {tuning : BbrTuning} {bbr bbr' : Bbr}

theorem step_phase {call : Call} (h : bbr.step profile rounding tuning call = .ok bbr') :
    Phase.Moves bbr.phase bbr'.phase ∧
      ((bbr.mode = .startup → ¬ bbr.isAtFullBandwidth) → bbr'.mode = .startup → ¬ bbr'.isAtFullBandwidth) := by
  cases call with
  | ackEvent now event draw =>
    have hstep := onAckEvent_spec h
    exact ⟨hstep.moves, fun _ => hstep.full⟩
  | congestionEvent isPersistentCongestion lostBytes =>
    cases h
    unfold onCongestionEvent
    dsimp only
    split
    all_goals exact ⟨.refl, id⟩
  | _ =>
    cases h
    exact ⟨.refl, id⟩

def PacesByMode (rounding : Rounding) (bbr : Bbr) : Prop :=
  match bbr.mode with
  | .startup => ¬ bbr.isAtFullBandwidth ∧ bbr.pacingGain = defaultHighGain rounding
  | .drain => bbr.isAtFullBandwidth ∧ bbr.pacingGain = defaultDrainGain rounding
  | .probeBw => bbr.isAtFullBandwidth ∧
    (bbr.pacingGain = pacingGainCycle bbr.currentCycleOffset ∨ bbr.pacingGain = 3 / 4 ∧ 1 < bbr.currentCycleOffset.val)
  | .probeRtt => bbr.pacingGain = 1

structure ModeInv (rounding : Rounding) (bbr : Bbr) : Prop where
  sound : bbr.phase.Sound
  highGain : bbr.highGain = defaultHighGain rounding
  drainGain : bbr.drainGain = defaultDrainGain rounding
  full : bbr.mode = .startup → ¬ bbr.isAtFullBandwidth

theorem modeInv_new (rounding : Rounding) (tuning : BbrTuning) (config : BbrConfig) (currentMtu : UInt16) :
    ModeInv rounding (new rounding tuning config currentMtu) :=
  ⟨⟨fun _ => rfl, nofun, nofun, nofun, rfl, rfl⟩, rfl, rfl, nofun⟩

theorem ModeInv.step {call : Call} (h : ModeInv rounding bbr)
    (hstep : bbr.step profile rounding tuning call = .ok bbr') : ModeInv rounding bbr' := by
  obtain ⟨hmoves, hfull⟩ := step_phase hstep
  obtain ⟨hhigh, hdrain, -⟩ := hmoves.fixed
  exact ⟨h.sound.moves hmoves, hhigh.trans h.highGain, hdrain.trans h.drainGain, hfull h.full⟩

theorem ModeInv.pacesByMode (h : ModeInv rounding bbr) : bbr.PacesByMode rounding := by
  unfold PacesByMode
  split
  next hmode => exact ⟨h.full hmode, (h.sound.startup hmode).trans h.highGain⟩
  next hmode => exact (h.sound.drain hmode).imp_right fun hgain => hgain.trans h.drainGain
  next hmode => exact h.sound.probeBw hmode
  next hmode => exact h.sound.probeRtt hmode

theorem modeInv_of_run {config : BbrConfig} {currentMtu : UInt16} {calls : List Call}
    (h : run profile rounding tuning config currentMtu calls = .ok bbr) : ModeInv rounding bbr :=
  foldlM_induction (fun _ _ _ _ hinv hstep => hinv.step hstep) (modeInv_new rounding tuning config currentMtu) h

/-- Whatever the connection reports, the controller paces by the gain of its mode, and once it has
found the full bandwidth it never gives it up nor starts up again. -/
theorem modes_of_run {config : BbrConfig} {currentMtu : UInt16} {calls : List Call}
    (h : run profile rounding tuning config currentMtu calls = .ok bbr) :
    bbr.PacesByMode rounding ∧ bbr.cwndGain = derivedHighCwndGain ∧
      ∀ (later : List Call) (bbr' : Bbr), later.foldlM (step profile rounding tuning) bbr = .ok bbr' →
        bbr.isAtFullBandwidth → bbr'.isAtFullBandwidth ∧ bbr'.mode ≠ .startup := by
  have hinv := modeInv_of_run h
  refine ⟨hinv.pacesByMode, hinv.sound.cwndGain.1, fun later bbr' hlater hfull => ?_⟩
  have hkept : ModeInv rounding bbr' ∧ bbr'.isAtFullBandwidth :=
    foldlM_induction (I := fun bbr => ModeInv rounding bbr ∧ bbr.isAtFullBandwidth)
      (fun _ _ _ _ hkept hstep => ⟨hkept.1.step hstep, (step_phase hstep).1.fixed.2.2 hkept.2⟩) ⟨hinv, hfull⟩ hlater
  exact ⟨hkept.2, fun hmode => hkept.1.full hmode hkept.2⟩

def sampleDraw : Fin 7 := 3

def sampleTrip (packetNumber start : Nat) : List Call :=
  [.sent (start * 1000000) 1200 packetNumber 6000,
    .ackEvent ((start + 100) * 1000000) ⟨6000, [⟨packetNumber, 1200⟩], [], false⟩ sampleDraw]

def sampleTrips : List Call :=
  sampleTrip 1 0 ++ sampleTrip 2 100 ++ sampleTrip 3 200 ++ sampleTrip 4 300 ++ sampleTrip 5 400 ++ sampleTrip 6 500

theorem modes_of_run_filled : ∃ bbr, run ⟨true⟩ {} {} {} 1200 (sampleTrips ++ sampleTrip 7 600) = .ok bbr ∧
    bbr.mode = .probeBw ∧ bbr.PacesByMode {} ∧ bbr.isAtFullBandwidth := by
  have hrun : (run ⟨true⟩ {} {} {} 1200 (sampleTrips ++ sampleTrip 7 600)).toOption.map
      (fun bbr => (bbr.mode, bbr.isAtFullBandwidth)) = some (.probeBw, true) := by decide +kernel
  obtain ⟨bbr, hrun, hmode⟩ := ok_of_toOption hrun
  obtain ⟨hpaces, -, -⟩ := modes_of_run hrun
  exact ⟨bbr, hrun, congrArg Prod.fst hmode, hpaces, congrArg Prod.snd hmode⟩

/-- No window is below the floor, nor below the initial window if that is lower still. -/
structure Floored (initialWindow floor : Nat) (bbr : Bbr) : Prop where
  minCwnd : floor ≤ bbr.minCwnd
  cwnd : min initialWindow floor ≤ bbr.cwnd
  recovery : bbr.recoveryState.inRecovery → floor ≤ bbr.recoveryWindow

theorem Floored.le_window {initialWindow floor : Nat} (h : Floored initialWindow floor bbr) :
    min initialWindow floor ≤ bbr.window := by
  unfold window
  split
  · exact Nat.le_trans (Nat.min_le_right _ _) h.minCwnd
  · split
    next hin => exact Nat.le_min.mpr ⟨h.cwnd, Nat.le_trans (Nat.min_le_right _ _) (h.recovery hin.1)⟩
    next => exact h.cwnd

def Call.MtuAtLeast (mtu : Nat) : Call → Prop
  | .mtuUpdate newMtu => mtu ≤ newMtu.toNat
  | _ => True

theorem Floored.step {initialWindow mtu : Nat} {call : Call} (h : Floored initialWindow (4 * mtu) bbr)
    (hcall : call.MtuAtLeast mtu) (hstep : bbr.step profile rounding tuning call = .ok bbr') :
    Floored initialWindow (4 * mtu) bbr' := by
  cases call with
  | ackEvent now event draw =>
    have hstep := onAckEvent_spec hstep
    refine ⟨hstep.minCwnd ▸ h.minCwnd, ?_, fun hin => Nat.le_trans h.minCwnd (hstep.recovery hin).1⟩
    rcases hstep.cwnd with hcwnd | hcwnd
    · exact hcwnd ▸ h.cwnd
    · exact Nat.le_trans (Nat.min_le_right _ _) (Nat.le_trans h.minCwnd hcwnd)
  | congestionEvent isPersistentCongestion lostBytes =>
    cases hstep
    unfold onCongestionEvent
    dsimp only
    split
    all_goals exact ⟨h.minCwnd, h.cwnd, h.recovery⟩
  | mtuUpdate newMtu =>
    cases hstep
    exact ⟨Nat.mul_le_mul_left 4 hcall, Nat.le_trans h.cwnd (Nat.le_max_left _ _), h.recovery⟩
  | sent now bytes lastPacketNumber bytesInFlight =>
    cases hstep
    exact ⟨h.minCwnd, h.cwnd, h.recovery⟩
  | endAcks inFlight =>
    cases hstep
    exact ⟨h.minCwnd, h.cwnd, h.recovery⟩

/-- Whatever is lost, the window leaves room for four datagrams of the smallest size that the path has had,
or for the initial window if that is less. -/
theorem floor_le_window {config : BbrConfig} {currentMtu : UInt16} {mtu : Nat} {calls : List Call}
    (hmtu : mtu ≤ currentMtu.toNat) (hcalls : ∀ call ∈ calls, call.MtuAtLeast mtu)
    (h : run profile rounding tuning config currentMtu calls = .ok bbr) :
    min config.initialWindow (4 * mtu) ≤ bbr.window := by
  have hnew : Floored config.initialWindow (4 * mtu) (new rounding tuning config currentMtu) :=
    ⟨Nat.mul_le_mul_left 4 hmtu, Nat.min_le_left _ _, nofun⟩
  have hfloored : Floored config.initialWindow (4 * mtu) bbr :=
    foldlM_induction (fun call hcall _ _ hfloored hstep => hfloored.step (hcalls call hcall) hstep) hnew h
  exact hfloored.le_window

def Call.time? : Call → Option Nat
  | .sent now _ _ _ => some now
  | .ackEvent now _ _ => some now
  | _ => none

/-- A probe that is going on does not end before this time. -/
def EndsFrom (time : Nat) (bbr : Bbr) : Prop :=
  bbr.mode = .probeRtt → ∀ exitTime ∈ bbr.exitProbeRttAt, time ≤ exitTime

theorem EndsFrom.step {start : Nat} {call : Call} (h : EndsFrom (start + probeRttTime) bbr)
    (hcall : ∀ now ∈ call.time?, start ≤ now) (hstep : bbr.step profile rounding tuning call = .ok bbr') :
    EndsFrom (start + probeRttTime) bbr' := by
  cases call with
  | ackEvent now event draw =>
    intro hin exitTime hexit
    rcases (onAckEvent_spec hstep).timed.set hin exitTime hexit with ⟨hprobe, hset⟩ | rfl
    · exact h hprobe exitTime hset
    · exact Nat.add_le_add_right (hcall now rfl) _
  | congestionEvent isPersistentCongestion lostBytes =>
    cases hstep
    unfold onCongestionEvent
    dsimp only
    split
    all_goals exact h
  | _ =>
    cases hstep
    exact h

/-- A probe of the round trip that an acknowledgement starts lasts for at least 200 ms, whatever is sent,
acknowledged or lost meanwhile. -/
theorem probeRtt_lasts {start now : Nat} {event event' : AckEvent} {draw draw' : Fin 7} {entered last left : Bbr}
    {calls : List Call} (henter : bbr.step profile rounding tuning (.ackEvent start event draw) = .ok entered)
    (hbefore : bbr.mode ≠ .probeRtt) (htimes : ∀ call ∈ calls, ∀ now ∈ call.time?, start ≤ now)
    (hrun : calls.foldlM (step profile rounding tuning) entered = .ok last) (hprobing : last.mode = .probeRtt)
    (hleave : last.step profile rounding tuning (.ackEvent now event' draw') = .ok left)
    (hout : left.mode ≠ .probeRtt) : start + probeRttTime ≤ now := by
  have hentered : EndsFrom (start + probeRttTime) entered := by
    intro hin exitTime hexit
    rcases (onAckEvent_spec henter).timed.set hin exitTime hexit with ⟨hprobe, -⟩ | rfl
    · exact absurd hprobe hbefore
    · exact Nat.le_refl _
  have hlast : EndsFrom (start + probeRttTime) last :=
    foldlM_induction (fun call hcall _ _ hends hstep => hends.step (htimes call hcall) hstep) hentered hrun
  obtain ⟨exitTime, hexit, hle⟩ := (onAckEvent_spec hleave).timed.kept hprobing hout
  exact Nat.le_trans (hlast hprobing exitTime hexit) hle

def sampleProbe : Exec Empty (Bbr × Bbr × Bbr × Bbr) := do
  let bbr ← run ⟨true⟩ {} {} {} 1200 (sampleTrips ++ [.sent 11000000000 1200 7 6000])
  let entered ← bbr.step ⟨true⟩ {} {} (.ackEvent 11100000000 ⟨6000, [⟨7, 1200⟩], [], false⟩ sampleDraw)
  let last ← (sampleTrip 8 11100 ++ [Call.sent 11200000000 1200 9 6000]).foldlM (step ⟨true⟩ {} {}) entered
  let left ← last.step ⟨true⟩ {} {} (.ackEvent 11300000000 ⟨6000, [⟨9, 1200⟩], [], false⟩ sampleDraw)
  return (bbr, entered, last, left)

theorem probeRtt_lasts_sample : ∃ bbr entered last left, sampleProbe = .ok (bbr, entered, last, left) ∧
    bbr.mode ≠ .probeRtt ∧ last.mode = .probeRtt ∧ left.mode ≠ .probeRtt ∧
    11100000000 + probeRttTime ≤ 11300000000 := by
  have hmodes : sampleProbe.toOption.map (fun states => (states.1.mode, states.2.2.1.mode, states.2.2.2.mode)) =
      some (.startup, .probeRtt, .probeBw) := by decide +kernel
  obtain ⟨⟨bbr, entered, last, left⟩, hsample, hmodes⟩ := ok_of_toOption hmodes
  obtain ⟨_, -, h⟩ := bind_eq_ok.mp hsample
  obtain ⟨_, henter, h⟩ := bind_eq_ok.mp h
  obtain ⟨_, hrun, h⟩ := bind_eq_ok.mp h
  obtain ⟨_, hleave, h⟩ := bind_eq_ok.mp h
  cases h
  have hbefore : bbr.mode = .startup := congrArg Prod.fst hmodes
  have hprobing : last.mode = .probeRtt := congrArg (fun modes => modes.2.1) hmodes
  have hafter : left.mode = .probeBw := congrArg (fun modes => modes.2.2) hmodes
  have hlasts := probeRtt_lasts henter (by simp [hbefore]) (by simp [sampleTrip, Call.time?]) hrun hprobing hleave
    (by simp [hafter])
  exact ⟨bbr, entered, last, left, hsample, by simp [hbefore], hprobing, by simp [hafter], hlasts⟩

end Bbr

end Hysteria.Quinn
