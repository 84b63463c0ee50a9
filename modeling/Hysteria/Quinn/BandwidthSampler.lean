import Hysteria.Lib.PartialMap
import Hysteria.Quinn.AckHeight

/-! How BBR measures bandwidth, `BandwidthSampler` of `bbr/bw_estimation.rs`: what was sent and
acknowledged is counted, each packet keeps the counts of the moment it was sent, and an acknowledgement
is measured against them. The strategies that the environment selects are parameters; times are in
nanoseconds. -/
namespace Hysteria.Quinn
open Lib

def infBandwidth : Nat := u64Max
def defaultCandidatesBufferSize : Nat := 256
def ackAggregationBandwidthThresholdOverEstimate : Rat := 2

inductive SampleBandwidthStrategy where
  | min
  | send
  | max
deriving DecidableEq, Repr

def finiteRate (rate : Nat) : Option Nat := if rate ≠ infBandwidth then some rate else none

def SampleBandwidthStrategy.select (strategy : SampleBandwidthStrategy) (sendRate ackRate : Nat) : Nat :=
  match strategy, finiteRate sendRate, finiteRate ackRate with
  | .min, some sendRate, some ackRate => Nat.min sendRate ackRate
  | .max, some sendRate, some ackRate => Nat.max sendRate ackRate
  | .send, some sendRate, some _ => sendRate
  | _, some sendRate, none => sendRate
  | _, none, some ackRate => ackRate
  | _, none, none => 0

inductive SendRateAnchorStrategy where
  | sentState
  | ackEvent
deriving DecidableEq, Repr

inductive AckEventBandwidthFusionStrategy where
  | off
  | sendCap
deriving DecidableEq, Repr

def AckEventBandwidthFusionStrategy.fuse (strategy : AckEventBandwidthFusionStrategy)
    (legacyBandwidth maxSendRate : Nat) : Nat :=
  match strategy with
  | .off => legacyBandwidth
  | .sendCap =>
    if maxSendRate = 0 ∨ maxSendRate = infBandwidth then legacyBandwidth else min legacyBandwidth maxSendRate

inductive SamplerAppLimitedExitStrategy where
  | legacy
  | ackTimeExitOk
deriving DecidableEq, Repr

def SamplerAppLimitedExitStrategy.shouldExit (strategy : SamplerAppLimitedExitStrategy) (packetNumber : Nat)
    (endOfAppLimitedPhase : Option Nat) (eventAppLimited : Bool) : Bool :=
  match endOfAppLimitedPhase, strategy with
  | none, _ => true
  | some phaseEnd, .legacy => packetNumber > phaseEnd
  | some phaseEnd, .ackTimeExitOk => packetNumber > phaseEnd || (!eventAppLimited && packetNumber == phaseEnd)

/-- What the environment variables of the sampler select. -/
structure SamplerStrategies where
  sampleBandwidth : SampleBandwidthStrategy := .min
  sendRateAnchor : SendRateAnchorStrategy := .sentState
  ackEventBandwidthFusion : AckEventBandwidthFusionStrategy := .off
  samplerAppLimitedExit : SamplerAppLimitedExitStrategy := .legacy
deriving DecidableEq, Repr

structure AckedPacketInfo where
  packetNumber : Nat
  bytesAcked : Nat
deriving DecidableEq, Repr

structure LostPacketInfo where
  packetNumber : Nat
  bytesLost : Nat
deriving DecidableEq, Repr

structure SendTimeState where
  isValid : Bool := false
  isAppLimited : Bool := false
  totalBytesSent : Nat := 0
  totalBytesAcked : Nat := 0
  totalBytesLost : Nat := 0
  bytesInFlight : Nat := 0
deriving DecidableEq, Repr

structure ConnectionStateOnSentPacket where
  sentTime : Nat
  size : Nat
  totalBytesSentAtLastAckedPacket : Nat
  lastAckedPacketSentTime : Option Nat
  lastAckedPacketAckTime : Option Nat
  sendTimeState : SendTimeState
deriving DecidableEq, Repr

structure BandwidthSample where
  bandwidth : Nat := 0
  rtt : Option Nat := none
  sendRate : Nat := 0
  stateAtSend : SendTimeState := {}
deriving DecidableEq, Repr

structure CongestionEventSample where
  sampleMaxBandwidth : Nat := 0
  sampleMaxBandwidthNonAppLimited : Nat := 0
  sampleIsAppLimited : Bool := false
  hasNonAppLimitedSample : Bool := false
  sampleRtt : Option Nat := none
  sampleMaxInflight : Nat := 0
  lastPacketSendState : SendTimeState := {}
  extraAcked : Nat := 0
  bytesAcked : Nat := 0
  bytesLost : Nat := 0
deriving DecidableEq, Repr

structure AckPoint where
  ackTime : Option Nat := none
  totalBytesAcked : Nat := 0
deriving DecidableEq, Repr

/-- The two points of the source's array, the older one first. -/
structure RecentAckPoints where
  older : AckPoint := {}
  newer : AckPoint := {}
deriving DecidableEq, Repr

namespace RecentAckPoints

def update (points : RecentAckPoints) (ackTime totalBytesAcked : Nat) : RecentAckPoints :=
  let points :=
    match points.newer.ackTime with
    | some latest =>
      if ackTime < latest then { points with newer := { points.newer with ackTime := some ackTime } }
      else if ackTime > latest then ⟨points.newer, { points.newer with ackTime := some ackTime }⟩
      else points
    | none => { points with newer := { points.newer with ackTime := some ackTime } }
  { points with newer := { points.newer with totalBytesAcked } }

def mostRecentPoint (points : RecentAckPoints) : AckPoint := points.newer

def lessRecentPoint (points : RecentAckPoints) : AckPoint :=
  if points.older.totalBytesAcked ≠ 0 then points.older else points.newer

end RecentAckPoints

structure BandwidthSampler where
  totalBytesSent : Nat := 0
  totalBytesAcked : Nat := 0
  totalBytesLost : Nat := 0
  totalBytesSentAtLastAckedPacket : Nat := 0
  lastAckedPacketSentTime : Option Nat := none
  lastAckedPacketAckTime : Option Nat := none
  lastSentPacket : Option Nat := none
  lastAckedPacket : Option Nat := none
  isAppLimited : Bool := false
  endOfAppLimitedPhase : Option Nat := none
  connectionStateMap : PartialMap Nat ConnectionStateOnSentPacket := .empty
  recentAckPoints : RecentAckPoints := {}
  a0Candidates : List AckPoint := []
  maxAckHeightTracker : MaxAckHeightTracker := {}
  totalBytesAckedAfterLastAckEvent : Nat := 0
  overestimateAvoidance : Bool := false
  limitMaxAckHeightTrackerBySendRate : Bool := false
  lastLegacyAckTime : Option Nat := none
  lastLegacyTotalAcked : Nat := 0

namespace BandwidthSampler

/-- The duration is cut to 64 bits before it divides. -/
def bwFromDelta (bytes delta : Nat) : Exec Empty (Option Nat) :=
  if delta = 0 then .ok none
  else if delta % 2 ^ 64 = 0 then .error (.panic .divisionByZero)
  else .ok (some (min (bytes * 1000000000) u64Max / (delta % 2 ^ 64)))

def pushA0Candidate (sampler : BandwidthSampler) (point : AckPoint) : BandwidthSampler :=
  let candidates := sampler.a0Candidates
  let candidates := if candidates.length ≥ defaultCandidatesBufferSize then candidates.tail else candidates
  { sampler with a0Candidates := candidates ++ [point] }

/-- The last candidate before the first one beyond the count; the candidates in front of it go. -/
def chooseA0Point (totalBytesAcked : Nat) : List AckPoint → Option AckPoint × List AckPoint
  | [] => (none, [])
  | [point] => (some point, [point])
  | point :: next :: rest =>
    if next.totalBytesAcked > totalBytesAcked then (some point, point :: next :: rest)
    else chooseA0Point totalBytesAcked (next :: rest)

/-- The part of `on_packet_sent` for a packet that finds nothing in flight: it is its own anchor. -/
def leaveIdle (sampler : BandwidthSampler) (sentTime : Nat) : BandwidthSampler :=
  let sampler := { sampler with lastAckedPacketAckTime := some sentTime }
  let sampler :=
    if sampler.overestimateAvoidance then
      let recentAckPoints := RecentAckPoints.update {} sentTime sampler.totalBytesAcked
      { sampler with recentAckPoints, a0Candidates := [] }.pushA0Candidate recentAckPoints.mostRecentPoint
    else sampler
  { sampler with
    totalBytesSentAtLastAckedPacket := sampler.totalBytesSent
    lastAckedPacketSentTime := some sentTime }

def onPacketSent (sampler : BandwidthSampler) (sentTime packetNumber bytes bytesInFlight : Nat)
    (isRetransmittable : Bool) : BandwidthSampler :=
  let sampler := { sampler with lastSentPacket := some packetNumber }
  if !isRetransmittable then sampler
  else
    let sampler := { sampler with totalBytesSent := saturatingAdd sampler.totalBytesSent bytes }
    let sampler := if bytesInFlight = 0 then sampler.leaveIdle sentTime else sampler
    { sampler with
      connectionStateMap := sampler.connectionStateMap.insert packetNumber
        { sentTime
          size := bytes
          totalBytesSentAtLastAckedPacket := sampler.totalBytesSentAtLastAckedPacket
          lastAckedPacketSentTime := sampler.lastAckedPacketSentTime
          lastAckedPacketAckTime := sampler.lastAckedPacketAckTime
          sendTimeState :=
            { isValid := true
              isAppLimited := sampler.isAppLimited
              totalBytesSent := sampler.totalBytesSent
              totalBytesAcked := sampler.totalBytesAcked
              totalBytesLost := sampler.totalBytesLost
              bytesInFlight := saturatingAdd bytesInFlight bytes } } }

def onPacketLost (sampler : BandwidthSampler) (packetNumber bytesLost : Nat) : BandwidthSampler × SendTimeState :=
  ({ sampler with totalBytesLost := saturatingAdd sampler.totalBytesLost bytesLost },
    ((sampler.connectionStateMap.get packetNumber).map (·.sendTimeState)).getD {})

def count (sampler : BandwidthSampler) (ackTime : Nat) (sent : ConnectionStateOnSentPacket) : BandwidthSampler :=
  let sampler :=
    { sampler with
      totalBytesAcked := saturatingAdd sampler.totalBytesAcked sent.size
      totalBytesSentAtLastAckedPacket := sent.sendTimeState.totalBytesSent
      lastAckedPacketSentTime := some sent.sentTime
      lastAckedPacketAckTime := some ackTime }
  if sampler.overestimateAvoidance then
    { sampler with recentAckPoints := sampler.recentAckPoints.update ackTime sampler.totalBytesAcked }
  else sampler

def sendRateAnchor (strategy : SendRateAnchorStrategy) (prior : BandwidthSampler)
    (sent : ConnectionStateOnSentPacket) (lastAckedPacketSentTime : Nat) : Nat × Nat :=
  match strategy, prior.lastAckedPacketSentTime with
  | .ackEvent, some sentTime => (sentTime, prior.totalBytesSentAtLastAckedPacket)
  | _, _ => (lastAckedPacketSentTime, sent.totalBytesSentAtLastAckedPacket)

def sendRate (sent : ConnectionStateOnSentPacket) (anchor : Nat × Nat) : Exec Empty Nat :=
  if sent.sentTime > anchor.1 then do
    let rate ← bwFromDelta (sent.sendTimeState.totalBytesSent - anchor.2) (sent.sentTime - anchor.1)
    return rate.getD infBandwidth
  else .ok infBandwidth

def ackRateAnchor (sampler : BandwidthSampler) (sent : ConnectionStateOnSentPacket) (lastAckedPacketAckTime : Nat) :
    BandwidthSampler × Nat × Nat :=
  let sentState := (lastAckedPacketAckTime, sent.sendTimeState.totalBytesAcked)
  if sampler.overestimateAvoidance then
    let chosen := chooseA0Point sent.sendTimeState.totalBytesAcked sampler.a0Candidates
    ({ sampler with a0Candidates := chosen.2 },
      (chosen.1.bind fun point => point.ackTime.map fun ackTime => (ackTime, point.totalBytesAcked)).getD sentState)
  else (sampler, sentState)

def onPacketAcknowledged (strategies : SamplerStrategies) (sampler : BandwidthSampler) (ackTime packetNumber : Nat) :
    Exec Empty (BandwidthSampler × BandwidthSample) :=
  let prior := sampler
  let sampler := { sampler with lastAckedPacket := some packetNumber }
  let noSample : BandwidthSample := { sendRate := infBandwidth }
  match sampler.connectionStateMap.get packetNumber with
  | none => .ok (sampler, noSample)
  | some sent =>
    let sampler := sampler.count ackTime sent
    match sent.lastAckedPacketSentTime, sent.lastAckedPacketAckTime with
    | some lastAckedPacketSentTime, some lastAckedPacketAckTime => do
      let sendRate ← sendRate sent (sendRateAnchor strategies.sendRateAnchor prior sent lastAckedPacketSentTime)
      let (sampler, a0) := sampler.ackRateAnchor sent lastAckedPacketAckTime
      match ← bwFromDelta (sampler.totalBytesAcked - a0.2) (ackTime - a0.1) with
      | none => return (sampler, noSample)
      | some ackRate =>
        return (sampler,
          { bandwidth := strategies.sampleBandwidth.select sendRate ackRate
            rtt := some (ackTime - sent.sentTime)
            sendRate
            stateAtSend := sent.sendTimeState })
    | _, _ => .ok (sampler, noSample)

def onAckEventEnd (profile : Profile) (rounding : Rounding) (sampler : BandwidthSampler)
    (bandwidthEstimate : Nat) (isNewMaxBandwidth : Bool) (roundTripCount : Nat) : Exec Empty (BandwidthSampler × Nat) :=
  let newlyAckedBytes := sampler.totalBytesAcked - sampler.totalBytesAckedAfterLastAckEvent
  if newlyAckedBytes = 0 then .ok (sampler, 0)
  else do
    let sampler := { sampler with totalBytesAckedAfterLastAckEvent := sampler.totalBytesAcked }
    let (maxAckHeightTracker, extraAcked) ← sampler.maxAckHeightTracker.update profile rounding
      { bandwidthEstimate := .ofNat bandwidthEstimate
        isNewMaxBandwidth
        roundTripCount
        lastSentPacketNumber := sampler.lastSentPacket
        lastAckedPacketNumber := sampler.lastAckedPacket
        -- bytes were acknowledged, so that the time is set and the clock is not asked
        ackTime := sampler.lastAckedPacketAckTime.getD 0
        bytesAcked := newlyAckedBytes }
    let sampler := { sampler with maxAckHeightTracker }
    if sampler.overestimateAvoidance && extraAcked = 0 then
      return (sampler.pushA0Candidate sampler.recentAckPoints.lessRecentPoint, extraAcked)
    else return (sampler, extraAcked)

structure AckLoop where
  sampler : BandwidthSampler
  eventSample : CongestionEventSample := {}
  lastAckedPacketSendState : SendTimeState := {}
  maxSendRate : Nat := 0
  largestAckedPacket : Option Nat := none

def takeRtt (eventSample : CongestionEventSample) (sample : BandwidthSample) : CongestionEventSample :=
  match sample.rtt, eventSample.sampleRtt with
  | some sampleRtt, some current => { eventSample with sampleRtt := some (min current sampleRtt) }
  | some sampleRtt, none => { eventSample with sampleRtt := some sampleRtt }
  | none, _ => eventSample

def takeNonAppLimited (eventSample : CongestionEventSample) (sample : BandwidthSample) : CongestionEventSample :=
  if !sample.stateAtSend.isAppLimited then
    { eventSample with
      hasNonAppLimitedSample := true
      sampleMaxBandwidthNonAppLimited := max eventSample.sampleMaxBandwidthNonAppLimited sample.bandwidth }
  else eventSample

def takeMax (eventSample : CongestionEventSample) (sample : BandwidthSample) : CongestionEventSample :=
  if sample.bandwidth > eventSample.sampleMaxBandwidth then
    { eventSample with
      sampleMaxBandwidth := sample.bandwidth
      sampleIsAppLimited := sample.stateAtSend.isAppLimited }
  else eventSample

def AckLoop.take (loop : AckLoop) (sample : BandwidthSample) : AckLoop :=
  if !sample.stateAtSend.isValid then loop
  else
    let eventSample := takeMax (takeNonAppLimited (takeRtt loop.eventSample sample) sample) sample
    let inflightSample := loop.sampler.totalBytesAcked - sample.stateAtSend.totalBytesAcked
    { loop with
      eventSample := { eventSample with sampleMaxInflight := max eventSample.sampleMaxInflight inflightSample }
      lastAckedPacketSendState := sample.stateAtSend
      maxSendRate := if sample.sendRate ≠ infBandwidth then max loop.maxSendRate sample.sendRate else loop.maxSendRate }

def AckLoop.turn (strategies : SamplerStrategies) (ackTime : Nat) (loop : AckLoop) (packet : AckedPacketInfo) :
    Exec Empty AckLoop := do
  let (sampler, sample) ← loop.sampler.onPacketAcknowledged strategies ackTime packet.packetNumber
  return { loop with sampler, largestAckedPacket := some packet.packetNumber }.take sample

def loseAll (sampler : BandwidthSampler) (lostPackets : List LostPacketInfo) : BandwidthSampler × SendTimeState :=
  lostPackets.foldl (fun acc packet =>
    let (sampler, sendState) := acc.1.onPacketLost packet.packetNumber packet.bytesLost
    (sampler, if sendState.isValid then sendState else acc.2)) (sampler, {})

def lastPacketSendState (lostState ackedState : SendTimeState) (lostPackets : List LostPacketInfo)
    (ackedPackets : List AckedPacketInfo) : SendTimeState :=
  match lostState.isValid, ackedState.isValid with
  | false, true => ackedState
  | true, false => lostState
  | true, true =>
    if (lostPackets.getLast?.map (·.packetNumber)).getD 0 > (ackedPackets.getLast?.map (·.packetNumber)).getD 0 then
      lostState
    else ackedState
  | false, false => {}

/-- The bytes acknowledged since the event before by the time since then, taken in where it exceeds every sample. -/
def fuseLegacy (strategies : SamplerStrategies) (loop : AckLoop) (ackTime : Nat) (eventAppLimited : Bool)
    (bandwidthEstimate : Nat) : Exec Empty (CongestionEventSample × Nat) :=
  match loop.sampler.lastLegacyAckTime with
  | none => .ok (loop.eventSample, bandwidthEstimate)
  | some lastAckTime => do
    match ← bwFromDelta (loop.sampler.totalBytesAcked - loop.sampler.lastLegacyTotalAcked) (ackTime - lastAckTime) with
    | none => return (loop.eventSample, bandwidthEstimate)
    | some legacyBandwidth =>
      let fusedBandwidth := strategies.ackEventBandwidthFusion.fuse legacyBandwidth loop.maxSendRate
      let eventSample :=
        if fusedBandwidth > loop.eventSample.sampleMaxBandwidth then
          { loop.eventSample with
            sampleMaxBandwidth := fusedBandwidth
            sampleIsAppLimited :=
              if strategies.ackEventBandwidthFusion = .off then loop.eventSample.sampleIsAppLimited
              else eventAppLimited }
        else loop.eventSample
      return (eventSample, max bandwidthEstimate fusedBandwidth)

structure CongestionEvent where
  ackTime : Nat
  ackedPackets : List AckedPacketInfo
  lostPackets : List LostPacketInfo
  maxBandwidth : Nat
  estBandwidthUpperBound : Nat
  roundTripCount : Nat
  eventAppLimited : Bool
deriving DecidableEq, Repr

/-- The last part of `on_congestion_event`, behind `on_ack_event_end`. -/
def settle (strategies : SamplerStrategies) (sampler : BandwidthSampler) (event : CongestionEvent)
    (bytesAcked : Nat) (largestAckedPacket : Option Nat) : BandwidthSampler :=
  let sampler :=
    if bytesAcked > 0 then
      { sampler with lastLegacyAckTime := some event.ackTime, lastLegacyTotalAcked := sampler.totalBytesAcked }
    else sampler
  if sampler.isAppLimited && largestAckedPacket.any fun packetNumber =>
      strategies.samplerAppLimitedExit.shouldExit packetNumber sampler.endOfAppLimitedPhase event.eventAppLimited then
    { sampler with isAppLimited := false, endOfAppLimitedPhase := none }
  else sampler

def onCongestionEvent (profile : Profile) (rounding : Rounding) (strategies : SamplerStrategies)
    (sampler : BandwidthSampler) (event : CongestionEvent) : Exec Empty (BandwidthSampler × CongestionEventSample) :=
  let totalBytesAckedBefore := sampler.totalBytesAcked
  let totalBytesLostBefore := sampler.totalBytesLost
  let lost := sampler.loseAll event.lostPackets
  if event.ackedPackets.isEmpty then
    .ok (lost.1, { lastPacketSendState := lost.2, bytesLost := lost.1.totalBytesLost - totalBytesLostBefore })
  else do
    let loop ← event.ackedPackets.foldlM (AckLoop.turn strategies event.ackTime) { sampler := lost.1 }
    let isNewMaxBandwidth := loop.eventSample.sampleMaxBandwidth > event.maxBandwidth
    let bandwidthEstimate := max event.maxBandwidth loop.eventSample.sampleMaxBandwidth
    let bandwidthEstimate :=
      if loop.sampler.limitMaxAckHeightTrackerBySendRate then max bandwidthEstimate loop.maxSendRate
      else bandwidthEstimate
    let (eventSample, bandwidthEstimate) ← fuseLegacy strategies loop event.ackTime event.eventAppLimited bandwidthEstimate
    let (sampler, extraAcked) ← loop.sampler.onAckEventEnd profile rounding
      (min event.estBandwidthUpperBound bandwidthEstimate) isNewMaxBandwidth event.roundTripCount
    let bytesAcked := sampler.totalBytesAcked - totalBytesAckedBefore
    return (sampler.settle strategies event bytesAcked loop.largestAckedPacket,
      { eventSample with
        lastPacketSendState :=
          lastPacketSendState lost.2 loop.lastAckedPacketSendState event.lostPackets event.ackedPackets
        extraAcked
        bytesAcked
        bytesLost := sampler.totalBytesLost - totalBytesLostBefore })

def onAppLimited (sampler : BandwidthSampler) : BandwidthSampler :=
  { sampler with isAppLimited := true, endOfAppLimitedPhase := sampler.lastSentPacket }

def removeObsoletePackets (sampler : BandwidthSampler) (leastUnacked : Nat) : BandwidthSampler :=
  { sampler with
    connectionStateMap := fun packetNumber =>
      if packetNumber ≥ leastUnacked then sampler.connectionStateMap.get packetNumber else none }

def maxAckHeight (sampler : BandwidthSampler) : Nat := sampler.maxAckHeightTracker.get

def enableOverestimateAvoidance (sampler : BandwidthSampler) : BandwidthSampler :=
  if sampler.overestimateAvoidance then sampler
  else
    { sampler with
      overestimateAvoidance := true
      maxAckHeightTracker :=
        { sampler.maxAckHeightTracker with
          ackAggregationBandwidthThreshold := ackAggregationBandwidthThresholdOverEstimate } }

end BandwidthSampler

end Hysteria.Quinn
