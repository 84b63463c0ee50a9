import Hysteria.Quinn.BandwidthSampler
import Hysteria.Quinn.MinMax

/-! The BBR congestion controller, `bbr/mod.rs`. What the environment variables select is a parameter,
and so is the rounding of floating-point numbers: every operation is exact and then rounded by a
function of which nothing is assumed. A random draw comes with the call that makes it. -/
namespace Hysteria.Quinn
open Lib

/-- `as u64` of a floating-point number -/
def truncU64 (value : Rat) : Nat := min value.floor.toNat u64Max

theorem truncU64_mono {a b : Rat} (h : a ≤ b) : truncU64 a ≤ truncU64 b :=
  Nat.le_min.mpr ⟨Nat.le_trans (Nat.min_le_left _ _) (Int.toNat_le_toNat (Rat.floor_monotone h)), Nat.min_le_right _ _⟩

/-- `.round() as u64` -/
def roundU64 (value : Rat) : Nat := min (value + 1 / 2).floor.toNat u64Max

inductive AppLimitedSource where
  | heuristic
  | connection
  | hybridAnd
deriving DecidableEq, Repr

def AppLimitedSource.isAppLimited (source : AppLimitedSource) (connAppLimited heuristicAppLimited : Bool) : Bool :=
  match source with
  | .heuristic => heuristicAppLimited
  | .connection => connAppLimited
  | .hybridAnd => connAppLimited && heuristicAppLimited

inductive MaxBwUpdateStrategy where
  | default
  | refreshCurrentOnAppLimited
deriving DecidableEq, Repr

def MaxBwUpdateStrategy.measurement (strategy : MaxBwUpdateStrategy) (currentBw sampleMaxBw : Nat)
    (sampleIsAppLimited : Bool) (bytesAcked : Nat) : Option Nat :=
  if bytesAcked = 0 then none
  else if !sampleIsAppLimited || sampleMaxBw > currentBw then some sampleMaxBw
  else
    match strategy with
    | .default => none
    | .refreshCurrentOnAppLimited => if currentBw ≠ 0 then some currentBw else none

inductive MaxBwAppLimitedStrategy where
  | legacy
  | preferNonAppLimited
  | eventNonAppLimitedOk
  | ackTimeExitOk
deriving DecidableEq, Repr

def MaxBwAppLimitedStrategy.candidate (strategy : MaxBwAppLimitedStrategy) (sample : CongestionEventSample)
    (eventAppLimited samplerIsAppLimited : Bool) : Nat × Bool :=
  match strategy with
  | .legacy => (sample.sampleMaxBandwidth, sample.sampleIsAppLimited)
  | .preferNonAppLimited =>
    if sample.sampleIsAppLimited && sample.sampleMaxBandwidthNonAppLimited != 0 then
      (sample.sampleMaxBandwidthNonAppLimited, false)
    else (sample.sampleMaxBandwidth, sample.sampleIsAppLimited)
  | .eventNonAppLimitedOk =>
    if sample.sampleIsAppLimited && sample.hasNonAppLimitedSample then (sample.sampleMaxBandwidth, false)
    else (sample.sampleMaxBandwidth, sample.sampleIsAppLimited)
  | .ackTimeExitOk =>
    if sample.sampleIsAppLimited && !eventAppLimited && !samplerIsAppLimited then (sample.sampleMaxBandwidth, false)
    else (sample.sampleMaxBandwidth, sample.sampleIsAppLimited)

inductive StartupFullBwGateStrategy where
  | default
  | ignoreAppLimited
  | eventAppLimitedOnly
  | ackTimeExitOk
deriving DecidableEq, Repr

def StartupFullBwGateStrategy.skipCheck (strategy : StartupFullBwGateStrategy)
    (lastSampleIsAppLimited sampleIsAppLimited eventAppLimited samplerIsAppLimited : Bool) : Bool :=
  match strategy with
  | .default => lastSampleIsAppLimited
  | .ignoreAppLimited => false
  | .eventAppLimitedOnly => eventAppLimited
  | .ackTimeExitOk => sampleIsAppLimited && (eventAppLimited || samplerIsAppLimited)

inductive ProbeRttEntryStrategy where
  | legacy
  | idleOrDrain
  | lastSampleOrDrain
deriving DecidableEq, Repr

def ProbeRttEntryStrategy.shouldEnter (strategy : ProbeRttEntryStrategy) (bytesInFlight probeRttCwnd : Nat)
    (lastSampleIsAppLimited eventAppLimited samplerIsAppLimited : Bool) : Bool :=
  match strategy with
  | .legacy => true
  | .idleOrDrain => eventAppLimited || samplerIsAppLimited || bytesInFlight ≤ probeRttCwnd
  | .lastSampleOrDrain =>
    lastSampleIsAppLimited || eventAppLimited || samplerIsAppLimited || bytesInFlight ≤ probeRttCwnd

inductive RoundGatingStrategy where
  | ackedOnly
  | largestObserved
deriving DecidableEq, Repr

/-- What the environment variables of the controller select. -/
structure BbrTuning where
  sampler : SamplerStrategies := {}
  bwWindowRounds : Nat := 10
  appLimitedSource : AppLimitedSource := .heuristic
  appLimitedTargetPct : Nat := 100
  appLimitedDebounce : Bool := false
  onSentPostFlight : Bool := false
  maxBwUpdate : MaxBwUpdateStrategy := .default
  maxBwAppLimited : MaxBwAppLimitedStrategy := .legacy
  startupFullBwGate : StartupFullBwGateStrategy := .default
  probeRttEntry : ProbeRttEntryStrategy := .legacy
  roundGating : RoundGatingStrategy := .ackedOnly

structure BbrConfig where
  initialWindow : Nat := 32 * 1200
  startupGrowthTarget : Rat := 5 / 4
  startupRoundsWithoutGrowthBeforeExit : Nat := 3
  recoverOnNonPersistentLoss : Bool := false
  nonPersistentLossReductionFactor : Rat := 1

inductive Mode where
  | startup
  | drain
  | probeBw
  | probeRtt
deriving DecidableEq, Repr

inductive RecoveryState where
  | notInRecovery
  | conservation
  | growth
deriving DecidableEq, Repr

def RecoveryState.inRecovery (state : RecoveryState) : Bool := state ≠ .notInRecovery

structure LossState where
  lostBytes : Nat := 0
  persistentCongestion : Bool := false
deriving DecidableEq, Repr

namespace LossState

def hasLosses (loss : LossState) : Bool := loss.lostBytes ≠ 0

def shouldEnterRecovery (loss : LossState) (config : BbrConfig) : Bool :=
  loss.hasLosses && (loss.persistentCongestion || config.recoverOnNonPersistentLoss)

def effectiveRecoveryLoss (rounding : Rounding) (loss : LossState) (config : BbrConfig) (bytesLost : Nat) : Nat :=
  if !loss.hasLosses then 0
  else if loss.persistentCongestion then bytesLost
  else if config.recoverOnNonPersistentLoss then
    roundU64 (rounding.double (rounding.double bytesLost * config.nonPersistentLossReductionFactor))
  else 0

end LossState

def calculateMinWindow (currentMtu : Nat) : Nat := 4 * currentMtu

def defaultHighGain (rounding : Rounding) : Rat := rounding.single (2885 / 1000)
def defaultDrainGain (rounding : Rounding) : Rat := rounding.single (1 / defaultHighGain rounding)
def derivedHighCwndGain : Rat := 2

def pacingGainCycle (offset : Fin 8) : Rat :=
  if offset = 0 then 5 / 4 else if offset = 1 then 3 / 4 else 1

def startupFullLossCount : Nat := 8
def startupLossThreshold (rounding : Rounding) : Rat := rounding.double (2 / 100)
def minBbrPacerBytesPerSecond : Nat := 65536
def singleEpsilon : Rat := 1 / 2 ^ 23
def probeRttTime : Nat := 200000000
def minRttExpiry : Nat := 10000000000

structure Bbr where
  config : BbrConfig
  currentMtu : Nat
  sampler : BandwidthSampler := {}
  maxBandwidth : MinMax := {}
  ackedBytes : Nat := 0
  mode : Mode := .startup
  lossState : LossState := {}
  recoveryState : RecoveryState := .notInRecovery
  recoveryWindow : Nat := 0
  isAtFullBandwidth : Bool := false
  pacingGain : Rat
  highGain : Rat
  drainGain : Rat
  cwndGain : Rat
  highCwndGain : Rat
  lastCycleStart : Option Nat := none
  currentCycleOffset : Fin 8 := 0
  initCwnd : Nat
  minCwnd : Nat
  exitProbeRttAt : Option Nat := none
  probeRttRoundPassed : Bool := false
  minRtt : Nat := 0
  minRttTimestamp : Option Nat := none
  exitingQuiescence : Bool := false
  pacingRate : Nat := 0
  bytesInFlight : Nat := 0
  maxSentPacketNumber : Nat := 0
  endRecoveryAtPacketNumber : Nat := 0
  numLossEventsInRound : Nat := 0
  bytesLostInRound : Nat := 0
  cwnd : Nat
  currentRoundTripEndPacketNumber : Option Nat := none
  roundCount : Nat := 0
  bwAtLastRound : Nat := 0
  roundWoBwGain : Nat := 0
  lastSampleIsAppLimited : Bool := false

inductive AppLimitedMark where
  | maybeAppLimited
  | probeRtt
deriving DecidableEq, Repr

/-- Summary of one batch of acknowledgements, as `congestion.rs` has it. -/
structure Bbr.AckEvent where
  priorInFlight : Nat
  ackedPackets : List AckedPacketInfo
  lostPackets : List LostPacketInfo
  appLimited : Bool
deriving DecidableEq, Repr

namespace Bbr.AckEvent

def lastAckedPacket (event : AckEvent) : Option Nat := event.ackedPackets.getLast?.map (·.packetNumber)

def lastLostPacket (event : AckEvent) : Option Nat := event.lostPackets.getLast?.map (·.packetNumber)

end Bbr.AckEvent

def RoundGatingStrategy.roundPacketNumber (strategy : RoundGatingStrategy) (event : Bbr.AckEvent) : Option Nat :=
  match strategy, event.lastAckedPacket, event.lastLostPacket with
  | .ackedOnly, acked, _ => acked
  | .largestObserved, some acked, some lost => some (max acked lost)
  | .largestObserved, some acked, none => some acked
  | .largestObserved, none, lost => lost

namespace Bbr

def new (rounding : Rounding) (tuning : BbrTuning) (config : BbrConfig) (currentMtu : UInt16) : Bbr where
  config := config
  currentMtu := currentMtu.toNat
  maxBandwidth := { window := tuning.bwWindowRounds }
  pacingGain := defaultHighGain rounding
  highGain := defaultHighGain rounding
  drainGain := defaultDrainGain rounding
  cwndGain := derivedHighCwndGain
  highCwndGain := derivedHighCwndGain
  initCwnd := config.initialWindow
  minCwnd := calculateMinWindow currentMtu.toNat
  cwnd := config.initialWindow

section
variable (profile : Profile) (rounding : Rounding) (tuning : BbrTuning) (bbr : Bbr)

def bandwidthEstimate : Nat := bbr.maxBandwidth.get

def minRttForModel : Nat := if bbr.minRtt ≠ 0 then bbr.minRtt else 100000000

def getTargetCwnd (gain : Rat) : Exec Empty Nat := do
  let bdp ← mulUsize profile (bbr.minRttForModel / 1000 % usizeSize) bbr.bandwidthEstimate
  let cwnd := truncU64 (rounding.double (rounding.double (gain * rounding.double bdp) / 1000000))
  if cwnd = 0 then return max (truncU64 (rounding.double (gain * rounding.double bbr.initCwnd))) bbr.minCwnd
  else return max cwnd bbr.minCwnd

def getProbeRttCwnd : Nat := bbr.minCwnd

def enterStartupMode : Bbr := { bbr with mode := .startup, pacingGain := bbr.highGain, cwndGain := bbr.highCwndGain }

def cycleStart (draw : Fin 7) : Fin 8 := if draw.val ≥ 1 then draw.succ else 0

def enterProbeBandwidthMode (now : Nat) (draw : Fin 7) : Bbr :=
  { bbr with
    mode := .probeBw
    cwndGain := derivedHighCwndGain
    lastCycleStart := some now
    currentCycleOffset := cycleStart draw
    pacingGain := pacingGainCycle (cycleStart draw) }

def updateRoundTripCounter (lastAckedPacket : Nat) : Bbr × Bool :=
  if bbr.currentRoundTripEndPacketNumber.all fun roundEnd => lastAckedPacket > roundEnd then
    ({ bbr with
      roundCount := saturatingAdd bbr.roundCount 1
      currentRoundTripEndPacketNumber := some bbr.maxSentPacketNumber }, true)
  else (bbr, false)

def markSamplerAppLimited (source : AppLimitedMark) : Bbr :=
  if source = .maybeAppLimited && tuning.appLimitedDebounce && bbr.sampler.isAppLimited then bbr
  else { bbr with sampler := bbr.sampler.onAppLimited }

def heuristicAppLimitedWithPct (bytesInFlight targetCwnd pct : Nat) : Bool := bytesInFlight * 100 < targetCwnd * pct

def maybeAppLimited (bytesInFlight : Nat) (connAppLimited : Bool) : Exec Empty Bbr := do
  let targetCwnd ← bbr.getTargetCwnd profile rounding 1
  let heuristicAppLimited := heuristicAppLimitedWithPct bytesInFlight targetCwnd tuning.appLimitedTargetPct
  if tuning.appLimitedSource.isAppLimited connAppLimited heuristicAppLimited then
    return bbr.markSamplerAppLimited tuning .maybeAppLimited
  else return bbr

def updateRecoveryState (lastAckedPacket : Nat) (isRoundStart : Bool) : Bbr :=
  if !bbr.isAtFullBandwidth then bbr
  else
    let enterRecovery := bbr.lossState.shouldEnterRecovery bbr.config
    let bbr :=
      { bbr with
        endRecoveryAtPacketNumber :=
          if enterRecovery then bbr.maxSentPacketNumber else bbr.endRecoveryAtPacketNumber }
    match bbr.recoveryState with
    | .notInRecovery =>
      if enterRecovery then
        { bbr with
          recoveryState := .conservation
          recoveryWindow := 0
          currentRoundTripEndPacketNumber := some bbr.maxSentPacketNumber }
      else bbr
    | _ =>
      if !enterRecovery && lastAckedPacket > bbr.endRecoveryAtPacketNumber then
        { bbr with recoveryState := .notInRecovery }
      else if bbr.recoveryState = .conservation && isRoundStart then { bbr with recoveryState := .growth }
      else bbr

/-- The three tests of `update_gain_cycle_phase`, each of which may overrule the ones before it. -/
def shouldAdvanceGainCycling (now priorInFlight : Nat) (hasLosses : Bool) : Exec Empty Bool := do
  let advance := bbr.lastCycleStart.any fun start => now - start > bbr.minRtt
  let advance ←
    if bbr.pacingGain > 1 ∧ !hasLosses then do
      let target ← bbr.getTargetCwnd profile rounding bbr.pacingGain
      pure (if priorInFlight < target then false else advance)
    else pure advance
  if bbr.pacingGain < 1 then do
    let target ← bbr.getTargetCwnd profile rounding 1
    pure (if bbr.bytesInFlight ≤ target then true else advance)
  else pure advance

def applyCycleGain : Exec Empty Bbr := do
  let gain := pacingGainCycle bbr.currentCycleOffset
  if bbr.pacingGain < 1 ∧ |gain - 1| < singleEpsilon then do
    let target ← bbr.getTargetCwnd profile rounding 1
    if bbr.bytesInFlight > target then return bbr else return { bbr with pacingGain := gain }
  else return { bbr with pacingGain := gain }

def updateGainCyclePhase (now priorInFlight : Nat) (hasLosses : Bool) : Exec Empty Bbr := do
  let advance ← bbr.shouldAdvanceGainCycling profile rounding now priorInFlight hasLosses
  if advance then
    let next := { bbr with currentCycleOffset := bbr.currentCycleOffset + 1, lastCycleStart := some now }
    next.applyCycleGain profile rounding
  else return bbr

def maybeExitStartupOrDrain (now : Nat) (draw : Fin 7) : Exec Empty Bbr := do
  let bbr :=
    if bbr.mode = .startup ∧ bbr.isAtFullBandwidth then
      { bbr with mode := .drain, pacingGain := bbr.drainGain, cwndGain := bbr.highCwndGain }
    else bbr
  if bbr.mode = .drain then do
    let target ← bbr.getTargetCwnd profile rounding 1
    if bbr.bytesInFlight ≤ target then return bbr.enterProbeBandwidthMode now draw else return bbr
  else return bbr

def maybeUpdateMinRtt (now sampleMinRtt : Nat) : Bbr × Bool :=
  let minRttExpired := bbr.minRttTimestamp.any fun timestamp => now - timestamp > minRttExpiry
  if minRttExpired ∨ bbr.minRtt = 0 ∨ sampleMinRtt < bbr.minRtt then
    ({ bbr with minRtt := sampleMinRtt, minRttTimestamp := some now }, minRttExpired)
  else (bbr, minRttExpired)

/-- The first half of `maybe_enter_or_exit_probe_rtt`. -/
def maybeEnterProbeRtt (minRttExpired eventAppLimited samplerIsAppLimited : Bool) : Bbr :=
  if minRttExpired ∧ !bbr.exitingQuiescence ∧ bbr.mode ≠ .probeRtt ∧
      tuning.probeRttEntry.shouldEnter bbr.bytesInFlight (bbr.getProbeRttCwnd + bbr.currentMtu)
        bbr.lastSampleIsAppLimited eventAppLimited samplerIsAppLimited then
    { bbr with mode := .probeRtt, pacingGain := 1, exitProbeRttAt := none }
  else bbr

/-- The second half: what the mode does while it lasts, and how it ends. -/
def stayInProbeRtt (now : Nat) (isRoundStart : Bool) (draw : Fin 7) : Bbr :=
  let bbr := bbr.markSamplerAppLimited tuning .probeRtt
  match bbr.exitProbeRttAt with
  | none =>
    if bbr.bytesInFlight < bbr.getProbeRttCwnd + bbr.currentMtu then
      { bbr with exitProbeRttAt := some (now + probeRttTime), probeRttRoundPassed := false }
    else bbr
  | some exitTime =>
    let bbr := { bbr with probeRttRoundPassed := isRoundStart || bbr.probeRttRoundPassed }
    if now ≥ exitTime ∧ bbr.probeRttRoundPassed then
      let bbr := { bbr with minRttTimestamp := some now }
      if !bbr.isAtFullBandwidth then bbr.enterStartupMode else bbr.enterProbeBandwidthMode now draw
    else bbr

def maybeEnterOrExitProbeRtt (now : Nat) (isRoundStart minRttExpired eventAppLimited samplerIsAppLimited : Bool)
    (draw : Fin 7) : Bbr :=
  let bbr := bbr.maybeEnterProbeRtt tuning minRttExpired eventAppLimited samplerIsAppLimited
  let bbr := if bbr.mode = .probeRtt then bbr.stayInProbeRtt tuning now isRoundStart draw else bbr
  { bbr with exitingQuiescence := false }

def calculatePacingRate : Exec Empty Bbr :=
  let bw := bbr.bandwidthEstimate
  if bw = 0 then .ok bbr
  else
    let targetRate := truncU64 (rounding.double (rounding.double bw * bbr.pacingGain))
    if bbr.isAtFullBandwidth then .ok { bbr with pacingRate := targetRate }
    else if bbr.pacingRate = 0 ∧ bbr.minRtt ≠ 0 then do
      let rate ← BandwidthSampler.bwFromDelta bbr.initCwnd bbr.minRtt
      return { bbr with pacingRate := rate.getD bbr.pacingRate }
    else .ok { bbr with pacingRate := max bbr.pacingRate targetRate }

def calculateCwnd (bytesAcked : Nat) : Exec Empty Bbr :=
  if bbr.mode = .probeRtt then .ok bbr
  else do
    let targetWindow ← bbr.getTargetCwnd profile rounding bbr.cwndGain
    let cwnd :=
      if bbr.isAtFullBandwidth then
        min (saturatingAdd targetWindow bbr.sampler.maxAckHeight) (saturatingAdd bbr.cwnd bytesAcked)
      else if bbr.cwnd < targetWindow ∨ bbr.ackedBytes < bbr.initCwnd then saturatingAdd bbr.cwnd bytesAcked
      else bbr.cwnd
    return { bbr with cwnd := max cwnd bbr.minCwnd }

def calculateRecoveryWindow (bytesAcked bytesLost : Nat) : Bbr :=
  if !bbr.recoveryState.inRecovery then bbr
  else if bbr.recoveryWindow = 0 then
    { bbr with recoveryWindow := max (saturatingAdd bbr.bytesInFlight bytesAcked) bbr.minCwnd }
  else
    let effectiveLoss := bbr.lossState.effectiveRecoveryLoss rounding bbr.config bytesLost
    let window := if bbr.recoveryWindow ≥ effectiveLoss then bbr.recoveryWindow - effectiveLoss else bbr.currentMtu
    let window := if bbr.recoveryState = .growth then saturatingAdd window bytesAcked else window
    { bbr with recoveryWindow := max (max window (saturatingAdd bbr.bytesInFlight bytesAcked)) bbr.minCwnd }

def shouldExitStartupDueToLoss (lastPacketSendState : SendTimeState) : Bool :=
  if bbr.numLossEventsInRound < startupFullLossCount ∨ !lastPacketSendState.isValid then false
  else
    let inflightAtSend := lastPacketSendState.bytesInFlight
    inflightAtSend > 0 && bbr.bytesLostInRound >
      truncU64 (rounding.double (rounding.double inflightAtSend * startupLossThreshold rounding))

def checkIfFullBwReached (lastPacketSendState : SendTimeState)
    (sampleIsAppLimited eventAppLimited samplerIsAppLimited : Bool) : Bbr :=
  let target := truncU64 (rounding.double (rounding.double bbr.bwAtLastRound * bbr.config.startupGrowthTarget))
  let bw := bbr.bandwidthEstimate
  if tuning.startupFullBwGate.skipCheck bbr.lastSampleIsAppLimited sampleIsAppLimited eventAppLimited
      samplerIsAppLimited then bbr
  else if bw ≥ target then { bbr with bwAtLastRound := bw, roundWoBwGain := 0 }
  else
    let bbr := { bbr with roundWoBwGain := saturatingAdd bbr.roundWoBwGain 1 }
    if bbr.roundWoBwGain ≥ bbr.config.startupRoundsWithoutGrowthBeforeExit ∨
        bbr.shouldExitStartupDueToLoss rounding lastPacketSendState then
      { bbr with isAtFullBandwidth := true }
    else bbr

def flightBeforeSend (bytes bytesInFlight : Nat) : Nat :=
  if tuning.onSentPostFlight then bytesInFlight else bytesInFlight - bytes

def onSent (now bytes lastPacketNumber bytesInFlight : Nat) : Bbr :=
  let bytesInFlightBeforeSend := flightBeforeSend tuning bytes bytesInFlight
  { bbr with
    maxSentPacketNumber := lastPacketNumber
    exitingQuiescence := if bytesInFlightBeforeSend = 0 then true else bbr.exitingQuiescence
    bytesInFlight := bytesInFlightBeforeSend
    sampler := bbr.sampler.onPacketSent now lastPacketNumber bytes bytesInFlightBeforeSend (bytes ≠ 0) }

def startRound (event : AckEvent) : Bbr × Bool :=
  match tuning.roundGating.roundPacketNumber event with
  | some packet => bbr.updateRoundTripCounter packet
  | none => (bbr, false)

/-- The first part of `on_ack_event`: what is in flight, the round, and the recovery. -/
def openEvent (event : AckEvent) : Exec Empty (Bbr × Bool) := do
  let bbr ← bbr.maybeAppLimited profile rounding tuning event.priorInFlight event.appLimited
  let bytesInFlight := event.ackedPackets.foldl (fun inFlight packet => inFlight - packet.bytesAcked) event.priorInFlight
  let bytesInFlight := event.lostPackets.foldl (fun inFlight packet => inFlight - packet.bytesLost) bytesInFlight
  let round := startRound tuning { bbr with bytesInFlight } event
  match event.lastAckedPacket with
  | some lastAckedPacket => return (round.1.updateRecoveryState lastAckedPacket round.2, round.2)
  | none => return round

/-- The second part: the sampler is told of the event, and what it measures is the filter's. -/
def takeSample (now : Nat) (event : AckEvent) : Exec Empty (Bbr × CongestionEventSample) := do
  let (sampler, sample) ← bbr.sampler.onCongestionEvent profile rounding tuning.sampler
    { ackTime := now
      ackedPackets := event.ackedPackets
      lostPackets := event.lostPackets
      maxBandwidth := bbr.bandwidthEstimate
      estBandwidthUpperBound := u64Max
      roundTripCount := bbr.roundCount
      eventAppLimited := event.appLimited }
  let bbr :=
    { bbr with
      sampler
      lastSampleIsAppLimited :=
        if sample.lastPacketSendState.isValid then sample.lastPacketSendState.isAppLimited
        else bbr.lastSampleIsAppLimited }
  let candidate := tuning.maxBwAppLimited.candidate sample event.appLimited sampler.isAppLimited
  match tuning.maxBwUpdate.measurement bbr.bandwidthEstimate candidate.1 candidate.2 sample.bytesAcked with
  | some measurement =>
    let maxBandwidth ← bbr.maxBandwidth.updateMax profile bbr.roundCount measurement
    return ({ bbr with maxBandwidth }, sample)
  | none => return (bbr, sample)

def takeRtt (now : Nat) (sample : CongestionEventSample) : Bbr × Bool :=
  match sample.sampleRtt with
  | some sampleRtt => bbr.maybeUpdateMinRtt now sampleRtt
  | none => (bbr, false)

def turnCycle (now : Nat) (event : AckEvent) : Exec Empty Bbr :=
  if bbr.mode = .probeBw then
    bbr.updateGainCyclePhase profile rounding now event.priorInFlight (!event.lostPackets.isEmpty)
  else .ok bbr

def reviewRound (event : AckEvent) (sample : CongestionEventSample) (isRoundStart : Bool) : Bbr :=
  if isRoundStart ∧ !bbr.isAtFullBandwidth then
    bbr.checkIfFullBwReached rounding tuning sample.lastPacketSendState sample.sampleIsAppLimited event.appLimited
      bbr.sampler.isAppLimited
  else bbr

/-- The third part: the mode. -/
def moveOn (now : Nat) (event : AckEvent) (sample : CongestionEventSample) (isRoundStart : Bool) (draw : Fin 7) :
    Exec Empty Bbr := do
  let minRttExpired := (bbr.takeRtt now sample).2
  let bbr ← (bbr.takeRtt now sample).1.turnCycle profile rounding now event
  let bbr := bbr.reviewRound rounding tuning event sample isRoundStart
  let bbr := { bbr with ackedBytes := saturatingAdd bbr.ackedBytes sample.bytesAcked }
  let bbr ← bbr.maybeExitStartupOrDrain profile rounding now draw
  return bbr.maybeEnterOrExitProbeRtt tuning now isRoundStart minRttExpired event.appLimited bbr.sampler.isAppLimited
    draw

/-- The fourth part: the pacing rate and the windows. -/
def setLimits (sample : CongestionEventSample) : Exec Empty Bbr := do
  let bbr ← bbr.calculatePacingRate rounding
  let bbr ← bbr.calculateCwnd profile rounding sample.bytesAcked
  return bbr.calculateRecoveryWindow rounding sample.bytesAcked sample.bytesLost

/-- The last part: packets that are not waited for any more, and the losses, are forgotten. -/
def closeEvent (event : AckEvent) (isRoundStart : Bool) : Bbr :=
  let leastUnacked :=
    match event.lastAckedPacket with
    | some packet => some (packet - 2)
    | none => event.lastLostPacket.map fun packet => saturatingAdd packet 1
  { bbr with
    sampler :=
      match leastUnacked with
      | some leastUnacked => bbr.sampler.removeObsoletePackets leastUnacked
      | none => bbr.sampler
    lossState := {}
    numLossEventsInRound := if isRoundStart then 0 else bbr.numLossEventsInRound
    bytesLostInRound := if isRoundStart then 0 else bbr.bytesLostInRound }

def onAckEvent (now : Nat) (event : AckEvent) (draw : Fin 7) : Exec Empty Bbr := do
  let (bbr, isRoundStart) ← bbr.openEvent profile rounding tuning event
  let (bbr, sample) ← bbr.takeSample profile rounding tuning now event
  let bbr ← bbr.moveOn profile rounding tuning now event sample isRoundStart draw
  let bbr ← bbr.setLimits profile rounding sample
  return bbr.closeEvent event isRoundStart

def onEndAcks (inFlight : Nat) : Bbr := { bbr with bytesInFlight := inFlight }

def onCongestionEvent (isPersistentCongestion : Bool) (lostBytes : Nat) : Bbr :=
  let lossState : LossState :=
    { lostBytes := saturatingAdd bbr.lossState.lostBytes lostBytes
      persistentCongestion := bbr.lossState.persistentCongestion || isPersistentCongestion }
  let bbr := { bbr with lossState }
  if lostBytes > 0 ∧ lossState.shouldEnterRecovery bbr.config then
    { bbr with
      numLossEventsInRound := saturatingAdd bbr.numLossEventsInRound 1
      bytesLostInRound := saturatingAdd bbr.bytesLostInRound lostBytes }
  else bbr

def onMtuUpdate (newMtu : UInt16) : Bbr :=
  let minCwnd := calculateMinWindow newMtu.toNat
  { bbr with
    currentMtu := newMtu.toNat
    minCwnd
    initCwnd := max bbr.config.initialWindow minCwnd
    cwnd := max bbr.cwnd minCwnd }

def window : Nat :=
  if bbr.mode = .probeRtt then bbr.getProbeRttCwnd
  else if bbr.recoveryState.inRecovery ∧ bbr.mode ≠ .startup then min bbr.cwnd bbr.recoveryWindow
  else bbr.cwnd

/-- The pacing rate of `metrics`, in bits per second. -/
def pacingRateMetric : Option Nat :=
  if bbr.pacingRate ≠ 0 then some (min (max bbr.pacingRate minBbrPacerBytesPerSecond * 8) u64Max) else none

end

inductive Call where
  | sent (now bytes lastPacketNumber bytesInFlight : Nat)
  | ackEvent (now : Nat) (event : AckEvent) (draw : Fin 7)
  | endAcks (inFlight : Nat)
  | congestionEvent (isPersistentCongestion : Bool) (lostBytes : Nat)
  | mtuUpdate (newMtu : UInt16)
deriving DecidableEq, Repr

def step (profile : Profile) (rounding : Rounding) (tuning : BbrTuning) (bbr : Bbr) : Call → Exec Empty Bbr
  | .sent now bytes lastPacketNumber bytesInFlight => .ok (bbr.onSent tuning now bytes lastPacketNumber bytesInFlight)
  | .ackEvent now event draw => bbr.onAckEvent profile rounding tuning now event draw
  | .endAcks inFlight => .ok (bbr.onEndAcks inFlight)
  | .congestionEvent isPersistentCongestion lostBytes => .ok (bbr.onCongestionEvent isPersistentCongestion lostBytes)
  | .mtuUpdate newMtu => .ok (bbr.onMtuUpdate newMtu)

def run (profile : Profile) (rounding : Rounding) (tuning : BbrTuning) (config : BbrConfig) (currentMtu : UInt16)
    (calls : List Call) : Exec Empty Bbr :=
  calls.foldlM (step profile rounding tuning) (new rounding tuning config currentMtu)

end Bbr

end Hysteria.Quinn
