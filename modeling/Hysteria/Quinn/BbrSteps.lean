import Hysteria.Quinn.Bbr
import Mathlib.Logic.Relation

/-! The modes of the controller as a machine of their own, and what each part of an acknowledgement
event can change in the controller, and to what. -/
namespace Hysteria.Quinn
open Lib

structure Phase where
  mode : Mode
  isAtFullBandwidth : Bool
  pacingGain : Rat
  cwndGain : Rat
  currentCycleOffset : Fin 8
  highGain : Rat
  drainGain : Rat
  highCwndGain : Rat
deriving DecidableEq, Repr

/-- The moves that BBR makes between its modes. -/
inductive Phase.Step (p : Phase) : Phase → Prop where
  | saturate : Step p { p with isAtFullBandwidth := true }
  | drain (hmode : p.mode = .startup) (hfull : p.isAtFullBandwidth) :
    Step p { p with mode := .drain, pacingGain := p.drainGain, cwndGain := p.highCwndGain }
  | cruise (draw : Fin 7) (hmode : p.mode = .drain ∨ p.mode = .probeRtt ∧ p.isAtFullBandwidth) :
    Step p
      { p with
        mode := .probeBw
        cwndGain := derivedHighCwndGain
        currentCycleOffset := Bbr.cycleStart draw
        pacingGain := pacingGainCycle (Bbr.cycleStart draw) }
  | advance (hmode : p.mode = .probeBw) :
    Step p
      { p with
        currentCycleOffset := p.currentCycleOffset + 1
        pacingGain := pacingGainCycle (p.currentCycleOffset + 1) }
  | hold (hmode : p.mode = .probeBw) (hdrains : p.pacingGain < 1)
    (hnext : |pacingGainCycle (p.currentCycleOffset + 1) - 1| < singleEpsilon) :
    Step p { p with currentCycleOffset := p.currentCycleOffset + 1 }
  | probe (hmode : p.mode ≠ .probeRtt) : Step p { p with mode := .probeRtt, pacingGain := 1 }
  | restart (hmode : p.mode = .probeRtt) (hfull : ¬ p.isAtFullBandwidth) :
    Step p { p with mode := .startup, pacingGain := p.highGain, cwndGain := p.highCwndGain }

abbrev Phase.Moves : Phase → Phase → Prop := Relation.ReflTransGen Step

namespace Bbr

def phase (bbr : Bbr) : Phase where
  mode := bbr.mode
  isAtFullBandwidth := bbr.isAtFullBandwidth
  pacingGain := bbr.pacingGain
  cwndGain := bbr.cwndGain
  currentCycleOffset := bbr.currentCycleOffset
  highGain := bbr.highGain
  drainGain := bbr.drainGain
  highCwndGain := bbr.highCwndGain

variable {profile : Profile} {rounding : Rounding} {tuning : BbrTuning} {bbr bbr' : Bbr}

def Marked (sampler sampler' : BandwidthSampler) : Prop := sampler' = sampler ∨ sampler' = sampler.onAppLimited

theorem markSamplerAppLimited_spec (bbr : Bbr) (tuning : BbrTuning) (source : AppLimitedMark) :
    ∃ sampler, bbr.markSamplerAppLimited tuning source = { bbr with sampler } ∧ Marked bbr.sampler sampler := by
  unfold markSamplerAppLimited
  split
  · exact ⟨_, rfl, .inl rfl⟩
  · exact ⟨_, rfl, .inr rfl⟩

theorem maybeAppLimited_spec {bytesInFlight : Nat} {connAppLimited : Bool}
    (h : bbr.maybeAppLimited profile rounding tuning bytesInFlight connAppLimited = .ok bbr') :
    ∃ sampler, bbr' = { bbr with sampler } ∧ Marked bbr.sampler sampler := by
  obtain ⟨target, -, h⟩ := bind_eq_ok.mp h
  dsimp only at h
  split at h
  · cases h
    exact bbr.markSamplerAppLimited_spec tuning _
  · cases h
    exact ⟨_, rfl, .inl rfl⟩

theorem updateRoundTripCounter_spec (bbr : Bbr) (lastAckedPacket : Nat) :
    ∃ roundCount roundEnd, (bbr.updateRoundTripCounter lastAckedPacket).1 =
        { bbr with roundCount, currentRoundTripEndPacketNumber := roundEnd } ∧
      (roundCount = bbr.roundCount ∨ roundCount = saturatingAdd bbr.roundCount 1) := by
  unfold updateRoundTripCounter
  split
  · exact ⟨_, _, rfl, .inr rfl⟩
  · exact ⟨_, _, rfl, .inl rfl⟩

theorem startRound_spec (bbr : Bbr) (tuning : BbrTuning) (event : AckEvent) :
    ∃ roundCount roundEnd, (bbr.startRound tuning event).1 =
        { bbr with roundCount, currentRoundTripEndPacketNumber := roundEnd } ∧
      (roundCount = bbr.roundCount ∨ roundCount = saturatingAdd bbr.roundCount 1) := by
  unfold startRound
  split
  · exact updateRoundTripCounter_spec _ _
  · exact ⟨_, _, rfl, .inl rfl⟩

/-- Recovery is entered at full bandwidth only, and then without a window. -/
def Recovers (bbr : Bbr) (recoveryState : RecoveryState) (recoveryWindow : Nat) : Prop :=
  recoveryState.inRecovery → bbr.recoveryState.inRecovery ∧ recoveryWindow = bbr.recoveryWindow ∨
    bbr.isAtFullBandwidth ∧ recoveryWindow = 0

theorem updateRecoveryState_spec (bbr : Bbr) (lastAckedPacket : Nat) (isRoundStart : Bool) :
    ∃ recoveryState recoveryWindow roundEnd recoveryEnd, bbr.updateRecoveryState lastAckedPacket isRoundStart =
        { bbr with
          recoveryState
          recoveryWindow
          currentRoundTripEndPacketNumber := roundEnd
          endRecoveryAtPacketNumber := recoveryEnd } ∧
      Recovers bbr recoveryState recoveryWindow := by
  unfold updateRecoveryState
  dsimp only
  split
  · exact ⟨_, _, _, _, rfl, fun h => .inl ⟨h, rfl⟩⟩
  next hfull =>
    have hfull : bbr.isAtFullBandwidth := by simpa using hfull
    generalize (if bbr.lossState.shouldEnterRecovery bbr.config then bbr.maxSentPacketNumber
      else bbr.endRecoveryAtPacketNumber) = recoveryEnd
    split
    · split
      · exact ⟨_, _, _, _, rfl, fun _ => .inr ⟨hfull, rfl⟩⟩
      · exact ⟨_, _, _, _, rfl, fun h => .inl ⟨h, rfl⟩⟩
    next hstate =>
      have hin : bbr.recoveryState.inRecovery := by simpa [RecoveryState.inRecovery] using hstate
      split
      · exact ⟨_, _, _, _, rfl, fun _ => .inl ⟨hin, rfl⟩⟩
      · split
        all_goals exact ⟨_, _, _, _, rfl, fun _ => .inl ⟨hin, rfl⟩⟩

theorem openEvent_spec {event : AckEvent} {isRoundStart : Bool}
    (h : bbr.openEvent profile rounding tuning event = .ok (bbr', isRoundStart)) :
    ∃ sampler bytesInFlight roundCount roundEnd recoveryEnd recoveryState recoveryWindow,
      bbr' =
        { bbr with
          sampler
          bytesInFlight
          roundCount
          currentRoundTripEndPacketNumber := roundEnd
          endRecoveryAtPacketNumber := recoveryEnd
          recoveryState
          recoveryWindow } ∧
      Marked bbr.sampler sampler ∧
      (roundCount = bbr.roundCount ∨ roundCount = saturatingAdd bbr.roundCount 1) ∧
      Recovers bbr recoveryState recoveryWindow := by
  obtain ⟨marked, hmarked, h⟩ := bind_eq_ok.mp h
  obtain ⟨sampler, rfl, hsampler⟩ := maybeAppLimited_spec hmarked
  dsimp only at h
  generalize List.foldl _ _ event.lostPackets = bytesInFlight at h
  obtain ⟨roundCount, roundEnd, hround, hcount⟩ := startRound_spec { bbr with sampler, bytesInFlight } tuning event
  rw [hround] at h
  cases hacked : event.lastAckedPacket with
  | none =>
    rw [hacked] at h
    have hbbr : (startRound tuning { bbr with sampler, bytesInFlight } event).1 = bbr' :=
      congrArg Prod.fst (Except.ok.inj h)
    exact ⟨_, _, _, _, _, _, _, hbbr.symm.trans hround, hsampler, hcount, fun h => .inl ⟨h, rfl⟩⟩
  | some lastAckedPacket =>
    rw [hacked] at h
    cases h
    obtain ⟨_, _, _, _, hrecovery, hrecovers⟩ := updateRecoveryState_spec
      { bbr with sampler, bytesInFlight, roundCount, currentRoundTripEndPacketNumber := roundEnd } lastAckedPacket
      (startRound tuning { bbr with sampler, bytesInFlight } event).2
    exact ⟨_, _, _, _, _, _, _, hrecovery, hsampler, hcount, hrecovers⟩

theorem takeSample_spec {now : Nat} {event : AckEvent} {sample : CongestionEventSample}
    (h : bbr.takeSample profile rounding tuning now event = .ok (bbr', sample)) :
    ∃ sampler lastSampleIsAppLimited maxBandwidth,
      bbr' = { bbr with sampler, lastSampleIsAppLimited, maxBandwidth } := by
  obtain ⟨⟨sampler, sample⟩, -, h⟩ := bind_eq_ok.mp h
  dsimp only at h
  split at h
  · obtain ⟨maxBandwidth, -, h⟩ := bind_eq_ok.mp h
    cases h
    exact ⟨_, _, _, rfl⟩
  · cases h
    exact ⟨_, _, _, rfl⟩

structure Held where
  config : BbrConfig
  currentMtu : Nat
  maxBandwidth : MinMax
  recoveryState : RecoveryState
  recoveryWindow : Nat
  initCwnd : Nat
  minCwnd : Nat
  cwnd : Nat
  roundCount : Nat

def held (bbr : Bbr) : Held where
  config := bbr.config
  currentMtu := bbr.currentMtu
  maxBandwidth := bbr.maxBandwidth
  recoveryState := bbr.recoveryState
  recoveryWindow := bbr.recoveryWindow
  initCwnd := bbr.initCwnd
  minCwnd := bbr.minCwnd
  cwnd := bbr.cwnd
  roundCount := bbr.roundCount

structure Shifts (bbr bbr' : Bbr) : Prop where
  held : bbr'.held = bbr.held
  sampler : bbr'.sampler = bbr.sampler
  minRtt : bbr'.minRtt = bbr.minRtt
  exitProbeRttAt : bbr'.exitProbeRttAt = bbr.exitProbeRttAt
  probing : bbr'.mode = .probeRtt ↔ bbr.mode = .probeRtt
  moves : Phase.Moves bbr.phase bbr'.phase

theorem Shifts.refl (bbr : Bbr) : Shifts bbr bbr := ⟨rfl, rfl, rfl, rfl, Iff.rfl, .refl⟩

theorem Shifts.trans {bbr'' : Bbr} (h : Shifts bbr bbr') (h' : Shifts bbr' bbr'') : Shifts bbr bbr'' where
  held := h'.held.trans h.held
  sampler := h'.sampler.trans h.sampler
  minRtt := h'.minRtt.trans h.minRtt
  exitProbeRttAt := h'.exitProbeRttAt.trans h.exitProbeRttAt
  probing := h'.probing.trans h.probing
  moves := h.moves.trans h'.moves

theorem shifts_ackedBytes (bbr : Bbr) (ackedBytes : Nat) : Shifts bbr { bbr with ackedBytes } :=
  ⟨rfl, rfl, rfl, rfl, Iff.rfl, .refl⟩

theorem takeRtt_spec (bbr : Bbr) (now : Nat) (sample : CongestionEventSample) :
    ∃ minRtt minRttTimestamp, (bbr.takeRtt now sample).1 = { bbr with minRtt, minRttTimestamp } ∧
      (minRtt = bbr.minRtt ∨ sample.sampleRtt = some minRtt) := by
  unfold takeRtt maybeUpdateMinRtt
  cases sample.sampleRtt with
  | none => exact ⟨_, _, rfl, .inl rfl⟩
  | some sampleRtt =>
    dsimp only
    split
    · exact ⟨_, _, rfl, .inr rfl⟩
    · exact ⟨_, _, rfl, .inl rfl⟩

theorem shifts_updateGainCyclePhase {now priorInFlight : Nat} {hasLosses : Bool} (hmode : bbr.mode = .probeBw)
    (h : bbr.updateGainCyclePhase profile rounding now priorInFlight hasLosses = .ok bbr') : Shifts bbr bbr' := by
  obtain ⟨advance, -, h⟩ := bind_eq_ok.mp h
  dsimp only at h
  split at h
  case isFalse =>
    cases h
    exact .refl bbr
  case isTrue =>
    have hadvance : Phase.Step bbr.phase _ := .advance hmode
    unfold applyCycleGain at h
    dsimp only at h
    split at h
    case isFalse =>
      cases h
      exact ⟨rfl, rfl, rfl, rfl, Iff.rfl, .single hadvance⟩
    case isTrue hholds =>
      obtain ⟨target, -, h⟩ := bind_eq_ok.mp h
      split at h
      · cases h
        exact ⟨rfl, rfl, rfl, rfl, Iff.rfl, .single (.hold hmode hholds.1 hholds.2)⟩
      · cases h
        exact ⟨rfl, rfl, rfl, rfl, Iff.rfl, .single hadvance⟩

theorem shifts_turnCycle {now : Nat} {event : AckEvent} (h : bbr.turnCycle profile rounding now event = .ok bbr') :
    Shifts bbr bbr' := by
  unfold turnCycle at h
  split at h
  case isTrue hmode => exact shifts_updateGainCyclePhase hmode h
  case isFalse =>
    cases h
    exact .refl bbr

theorem shifts_reviewRound (bbr : Bbr) (rounding : Rounding) (tuning : BbrTuning) (event : AckEvent)
    (sample : CongestionEventSample) (isRoundStart : Bool) :
    Shifts bbr (bbr.reviewRound rounding tuning event sample isRoundStart) := by
  unfold reviewRound checkIfFullBwReached
  dsimp only
  split_ifs
  · exact .refl bbr
  · exact ⟨rfl, rfl, rfl, rfl, Iff.rfl, .refl⟩
  · exact ⟨rfl, rfl, rfl, rfl, Iff.rfl, .single .saturate⟩
  · exact ⟨rfl, rfl, rfl, rfl, Iff.rfl, .refl⟩
  · exact .refl bbr

theorem maybeExitStartupOrDrain_spec {now : Nat} {draw : Fin 7}
    (h : bbr.maybeExitStartupOrDrain profile rounding now draw = .ok bbr') :
    Shifts bbr bbr' ∧ (bbr'.mode = .startup → ¬ bbr'.isAtFullBandwidth) := by
  unfold maybeExitStartupOrDrain at h
  by_cases hdrain : bbr.mode = .startup ∧ bbr.isAtFullBandwidth
  case pos =>
    have hmoves : Phase.Step bbr.phase _ := .drain hdrain.1 hdrain.2
    simp only [if_pos hdrain] at h
    obtain ⟨target, -, h⟩ := bind_eq_ok.mp h
    split at h
    · cases h
      have hcruise := Relation.ReflTransGen.tail (.single hmoves) (.cruise draw (.inl rfl))
      exact ⟨⟨rfl, rfl, rfl, rfl, by simp [enterProbeBandwidthMode, hdrain.1], hcruise⟩, nofun⟩
    · cases h
      exact ⟨⟨rfl, rfl, rfl, rfl, by simp [hdrain.1], .single hmoves⟩, nofun⟩
  case neg =>
    simp only [if_neg hdrain] at h
    split at h
    case isTrue hmode =>
      obtain ⟨target, -, h⟩ := bind_eq_ok.mp h
      split at h
      · cases h
        exact ⟨⟨rfl, rfl, rfl, rfl, by simp [enterProbeBandwidthMode, hmode], .single (.cruise draw (.inl hmode))⟩, nofun⟩
      · cases h
        exact ⟨.refl bbr, by simp [hmode]⟩
    case isFalse hmode =>
      cases h
      exact ⟨.refl bbr, fun hstartup hfull => hdrain ⟨hstartup, hfull⟩⟩

/-- The time at which a probe of the round trip ends is set once, and the probe lasts until then. -/
structure Timed (now : Nat) (bbr bbr' : Bbr) : Prop where
  set : bbr'.mode = .probeRtt → ∀ exitTime ∈ bbr'.exitProbeRttAt,
    (bbr.mode = .probeRtt ∧ bbr.exitProbeRttAt = some exitTime) ∨ exitTime = now + probeRttTime
  kept : bbr.mode = .probeRtt → bbr'.mode ≠ .probeRtt → ∃ exitTime ∈ bbr.exitProbeRttAt, exitTime ≤ now

structure Probes (now : Nat) (bbr bbr' : Bbr) : Prop where
  held : bbr'.held = bbr.held
  minRtt : bbr'.minRtt = bbr.minRtt
  marked : Marked bbr.sampler bbr'.sampler
  moves : Phase.Moves bbr.phase bbr'.phase
  full : bbr'.mode = .startup → ¬ bbr'.isAtFullBandwidth
  timed : Timed now bbr bbr'

theorem probes_stayInProbeRtt (tuning : BbrTuning) (now : Nat) (isRoundStart : Bool) (draw : Fin 7)
    (hmode : bbr.mode = .probeRtt) : Probes now bbr (bbr.stayInProbeRtt tuning now isRoundStart draw) := by
  unfold stayInProbeRtt
  obtain ⟨sampler, hsampler, hmarked⟩ := bbr.markSamplerAppLimited_spec tuning .probeRtt
  simp only [hsampler]
  have hfull : bbr.mode = .startup → ¬ bbr.isAtFullBandwidth := by simp [hmode]
  cases hexit : bbr.exitProbeRttAt with
  | none =>
    dsimp only
    split
    · refine ⟨rfl, rfl, hmarked, .refl, hfull, fun _ exitTime h => .inr (Option.some.inj h).symm, ?_⟩
      exact fun _ hout => absurd hmode hout
    · refine ⟨rfl, rfl, hmarked, .refl, hfull, fun _ exitTime h => ?_, fun _ hout => absurd hmode hout⟩
      cases h
  | some exitTime =>
    dsimp only
    split
    case isFalse =>
      exact ⟨rfl, rfl, hmarked, .refl, hfull, fun _ _ h => .inl ⟨hmode, hexit.trans h⟩,
        fun _ hout => absurd hmode hout⟩
    case isTrue hleaves =>
      have hkept : ∃ time ∈ bbr.exitProbeRttAt, time ≤ now := ⟨exitTime, hexit, hleaves.1⟩
      split
      case isTrue hfull =>
        have hfull : ¬ bbr.isAtFullBandwidth := by simpa using hfull
        exact ⟨rfl, rfl, hmarked, .single (.restart hmode hfull), fun _ => hfull, nofun, fun _ _ => hkept⟩
      case isFalse hfull =>
        have hfull : bbr.isAtFullBandwidth := by simpa using hfull
        exact ⟨rfl, rfl, hmarked, .single (.cruise draw (.inr ⟨hmode, hfull⟩)), nofun, nofun, fun _ _ => hkept⟩

theorem probes_maybeEnterOrExitProbeRtt (tuning : BbrTuning) (now : Nat)
    (isRoundStart minRttExpired eventAppLimited samplerIsAppLimited : Bool) (draw : Fin 7)
    (hfull : bbr.mode = .startup → ¬ bbr.isAtFullBandwidth) :
    Probes now bbr (bbr.maybeEnterOrExitProbeRtt tuning now isRoundStart minRttExpired eventAppLimited
      samplerIsAppLimited draw) := by
  unfold maybeEnterOrExitProbeRtt maybeEnterProbeRtt
  by_cases henter : minRttExpired ∧ !bbr.exitingQuiescence ∧ bbr.mode ≠ .probeRtt ∧
      tuning.probeRttEntry.shouldEnter bbr.bytesInFlight (bbr.getProbeRttCwnd + bbr.currentMtu)
        bbr.lastSampleIsAppLimited eventAppLimited samplerIsAppLimited
  case pos =>
    have hother := henter.2.2.1
    have hmoves : Phase.Step bbr.phase _ := .probe hother
    have h := @probes_stayInProbeRtt { bbr with mode := .probeRtt, pacingGain := 1, exitProbeRttAt := none } tuning now
      isRoundStart draw rfl
    simp only [if_pos henter, if_true]
    refine ⟨h.held, h.minRtt, h.marked, .head hmoves h.moves, h.full, fun hin exitTime hexit => ?_,
      fun hin => absurd hin hother⟩
    exact .inr ((h.timed.set hin exitTime hexit).resolve_left fun h => nomatch h.2)
  case neg =>
    simp only [if_neg henter]
    split
    case isTrue hmode =>
      have h := probes_stayInProbeRtt tuning now isRoundStart draw hmode
      exact ⟨h.held, h.minRtt, h.marked, h.moves, h.full, h.timed.set, h.timed.kept⟩
    case isFalse hmode =>
      exact ⟨rfl, rfl, .inl rfl, .refl, hfull, fun hin => absurd hin hmode, fun hin => absurd hin hmode⟩

theorem moveOn_spec {now : Nat} {event : AckEvent} {sample : CongestionEventSample} {isRoundStart : Bool}
    {draw : Fin 7} (h : bbr.moveOn profile rounding tuning now event sample isRoundStart draw = .ok bbr') :
    bbr'.held = bbr.held ∧ Marked bbr.sampler bbr'.sampler ∧
      (bbr'.minRtt = bbr.minRtt ∨ sample.sampleRtt = some bbr'.minRtt) ∧ Phase.Moves bbr.phase bbr'.phase ∧
      (bbr'.mode = .startup → ¬ bbr'.isAtFullBandwidth) ∧ Timed now bbr bbr' := by
  unfold moveOn at h
  obtain ⟨minRtt, minRttTimestamp, hrtt, hmin⟩ := bbr.takeRtt_spec now sample
  rw [hrtt] at h
  obtain ⟨cycled, hcycled, h⟩ := bind_eq_ok.mp h
  obtain ⟨exited, hexited, h⟩ := bind_eq_ok.mp h
  cases h
  have hcycle := shifts_turnCycle hcycled
  have hreview := cycled.shifts_reviewRound rounding tuning event sample isRoundStart
  obtain ⟨hexit, hfull⟩ := maybeExitStartupOrDrain_spec hexited
  have hshifts : Shifts { bbr with minRtt, minRttTimestamp } exited :=
    hcycle.trans (hreview.trans ((shifts_ackedBytes _ _).trans hexit))
  have hprobes := probes_maybeEnterOrExitProbeRtt tuning now isRoundStart (bbr.takeRtt now sample).2 event.appLimited
    exited.sampler.isAppLimited draw hfull
  refine ⟨hprobes.held.trans hshifts.held, ?_, ?_, hshifts.moves.trans hprobes.moves, hprobes.full, ?_⟩
  · exact hshifts.sampler ▸ hprobes.marked
  · rw [hprobes.minRtt, hshifts.minRtt]
    exact hmin
  · refine ⟨fun hin exitTime hexit => ?_, fun hin hout => ?_⟩
    · exact (hprobes.timed.set hin exitTime hexit).imp_left fun h =>
        ⟨hshifts.probing.mp h.1, hshifts.exitProbeRttAt.symm.trans h.2⟩
    · obtain ⟨exitTime, hexit, hle⟩ := hprobes.timed.kept (hshifts.probing.mpr hin) hout
      exact ⟨exitTime, hshifts.exitProbeRttAt.symm.trans hexit, hle⟩

theorem calculatePacingRate_spec (h : bbr.calculatePacingRate rounding = .ok bbr') :
    ∃ pacingRate, bbr' = { bbr with pacingRate } ∧
      (bbr.bandwidthEstimate ≠ 0 → bbr.isAtFullBandwidth →
        pacingRate = truncU64 (rounding.double (rounding.double bbr.bandwidthEstimate * bbr.pacingGain))) := by
  unfold calculatePacingRate at h
  dsimp only at h
  split_ifs at h with hbw hfull
  · cases h
    exact ⟨_, rfl, fun h => absurd hbw h⟩
  · cases h
    exact ⟨_, rfl, fun _ _ => rfl⟩
  · obtain ⟨rate, -, h⟩ := bind_eq_ok.mp h
    cases h
    exact ⟨_, rfl, fun _ h => absurd h hfull⟩
  · cases h
    exact ⟨_, rfl, fun _ h => absurd h hfull⟩

theorem calculateCwnd_spec {bytesAcked : Nat} (h : bbr.calculateCwnd profile rounding bytesAcked = .ok bbr') :
    ∃ cwnd, bbr' = { bbr with cwnd } ∧ (cwnd = bbr.cwnd ∨ bbr.minCwnd ≤ cwnd) := by
  unfold calculateCwnd at h
  split at h
  · cases h
    exact ⟨_, rfl, .inl rfl⟩
  · obtain ⟨targetWindow, -, h⟩ := bind_eq_ok.mp h
    cases h
    exact ⟨_, rfl, .inr (Nat.le_max_right _ _)⟩

theorem calculateRecoveryWindow_spec (bbr : Bbr) (rounding : Rounding) (bytesAcked bytesLost : Nat) :
    ∃ recoveryWindow, bbr.calculateRecoveryWindow rounding bytesAcked bytesLost = { bbr with recoveryWindow } ∧
      (bbr.recoveryState.inRecovery → bbr.minCwnd ≤ recoveryWindow) := by
  unfold calculateRecoveryWindow
  split
  case isTrue hout => exact ⟨_, rfl, fun hin => absurd hin (by simpa using hout)⟩
  case isFalse =>
    split
    all_goals exact ⟨_, rfl, fun _ => Nat.le_max_right _ _⟩

theorem setLimits_spec {sample : CongestionEventSample} (h : bbr.setLimits profile rounding sample = .ok bbr') :
    ∃ pacingRate cwnd recoveryWindow, bbr' = { bbr with pacingRate, cwnd, recoveryWindow } ∧
      (bbr.bandwidthEstimate ≠ 0 → bbr.isAtFullBandwidth →
        pacingRate = truncU64 (rounding.double (rounding.double bbr.bandwidthEstimate * bbr.pacingGain))) ∧
      (cwnd = bbr.cwnd ∨ bbr.minCwnd ≤ cwnd) ∧ (bbr.recoveryState.inRecovery → bbr.minCwnd ≤ recoveryWindow) := by
  obtain ⟨paced, hpaced, h⟩ := bind_eq_ok.mp h
  obtain ⟨windowed, hwindowed, h⟩ := bind_eq_ok.mp h
  obtain ⟨pacingRate, rfl, hpacing⟩ := calculatePacingRate_spec hpaced
  obtain ⟨cwnd, rfl, hcwnd⟩ := calculateCwnd_spec hwindowed
  obtain ⟨window, hwindow, hfloor⟩ :=
    calculateRecoveryWindow_spec { bbr with pacingRate, cwnd } rounding sample.bytesAcked sample.bytesLost
  exact ⟨pacingRate, cwnd, window, (Except.ok.inj h).symm.trans hwindow, hpacing, hcwnd, hfloor⟩

/-- What an acknowledgement event does to the mode and to the limits. -/
structure AckStep (rounding : Rounding) (now : Nat) (bbr bbr' : Bbr) : Prop where
  moves : Phase.Moves bbr.phase bbr'.phase
  full : bbr'.mode = .startup → ¬ bbr'.isAtFullBandwidth
  timed : Timed now bbr bbr'
  minCwnd : bbr'.minCwnd = bbr.minCwnd
  cwnd : bbr'.cwnd = bbr.cwnd ∨ bbr.minCwnd ≤ bbr'.cwnd
  recovery : bbr'.recoveryState.inRecovery →
    bbr.minCwnd ≤ bbr'.recoveryWindow ∧ (bbr.recoveryState.inRecovery ∨ bbr.isAtFullBandwidth)
  pacing : bbr'.bandwidthEstimate ≠ 0 → bbr'.isAtFullBandwidth →
    bbr'.pacingRate = truncU64 (rounding.double (rounding.double bbr'.bandwidthEstimate * bbr'.pacingGain))

theorem onAckEvent_spec {now : Nat} {event : AckEvent} {draw : Fin 7}
    (h : bbr.onAckEvent profile rounding tuning now event draw = .ok bbr') : AckStep rounding now bbr bbr' := by
  obtain ⟨⟨opened, isRoundStart⟩, hopened, h⟩ := bind_eq_ok.mp h
  obtain ⟨⟨sampled, sample⟩, hsampled, h⟩ := bind_eq_ok.mp h
  obtain ⟨moved, hmoved, h⟩ := bind_eq_ok.mp h
  obtain ⟨limited, hlimited, h⟩ := bind_eq_ok.mp h
  obtain ⟨_, _, _, _, _, recoveryState, recoveryWindow, rfl, -, -, hrecovers⟩ := openEvent_spec hopened
  obtain ⟨_, _, _, rfl⟩ := takeSample_spec hsampled
  obtain ⟨hheld, -, -, hmoves, hfull, htimed⟩ := moveOn_spec hmoved
  obtain ⟨_, _, _, rfl, hpacing, hcwnd, hfloor⟩ := setLimits_spec hlimited
  cases h
  have hminCwnd : moved.minCwnd = bbr.minCwnd := congrArg Held.minCwnd hheld
  have hrecovery : moved.recoveryState = recoveryState := congrArg Held.recoveryState hheld
  have hheldCwnd : moved.cwnd = bbr.cwnd := congrArg Held.cwnd hheld
  refine ⟨hmoves, hfull, ⟨htimed.set, htimed.kept⟩, hminCwnd, ?_, fun hin => ?_, hpacing⟩
  · exact hcwnd.imp (Eq.trans · hheldCwnd) (Nat.le_trans (Nat.le_of_eq hminCwnd.symm))
  · exact ⟨hminCwnd ▸ hfloor hin, (hrecovers (hrecovery ▸ hin)).imp And.left And.left⟩

end Bbr

end Hysteria.Quinn
