import Hysteria.Quinn.BbrModes

/-! The bandwidth that the controller estimates is no more than acknowledgements arrive at, and nothing the
connection reports makes the controller panic. -/
namespace Hysteria.Quinn
open Lib

namespace Bbr.Call

def acknowledges (size : Nat → Nat) : Call → Nat
  | .ackEvent _ event _ => (event.ackedPackets.map fun packet => size packet.packetNumber).sum
  | _ => 0

def acknowledged (size : Nat → Nat) (calls : List Call) : Nat := (calls.map (acknowledges size)).sum

/-- The moments that arrivals are measured from: acknowledgements, and packets that find nothing in flight. -/
def anchor? (tuning : BbrTuning) : Call → Option Nat
  | .sent now bytes _ bytesInFlight => if flightBeforeSend tuning bytes bytesInFlight = 0 then some now else none
  | .ackEvent now _ _ => some now
  | _ => none

/-- The acknowledgements arrive at no more than this many bytes per second, whatever the path delivers, and no later
than this many nanoseconds after their packets. The times are of 64 bits. -/
structure Delivered (tuning : BbrTuning) (size : Nat → Nat) (rate rtt : Nat) (calls : List Call) : Prop where
  sizes : ∀ now bytes number bytesInFlight, .sent now bytes number bytesInFlight ∈ calls → bytes ≤ size number
  timely : ∀ call ∈ calls, ∀ now ∈ call.time?, now < 2 ^ 64
  rate_le : ∀ before earlier between now event draw after,
    calls = before ++ earlier :: between ++ .ackEvent now event draw :: after → ∀ since ∈ earlier.anchor? tuning,
      since < now → acknowledged size (between ++ [.ackEvent now event draw]) * 1000000000 ≤ rate * (now - since)
  rtt_le : ∀ before sentTime bytes number bytesInFlight between now event draw after,
    calls = before ++ .sent sentTime bytes number bytesInFlight :: between ++ .ackEvent now event draw :: after →
      ∀ packet ∈ event.ackedPackets, packet.packetNumber = number → now - sentTime ≤ rtt

theorem acknowledged_append (size : Nat → Nat) (calls calls' : List Call) :
    acknowledged size (calls ++ calls') = acknowledged size calls + acknowledged size calls' := by
  simp [acknowledged]

def ratesHold (size : Nat → Nat) (rate since : Nat) : Nat → List Call → Bool
  | _, [] => true
  | acked, .ackEvent now event draw :: rest =>
    let acked := acked + acknowledges size (.ackEvent now event draw)
    (now ≤ since || acked * 1000000000 ≤ rate * (now - since)) && ratesHold size rate since acked rest
  | acked, _ :: rest => ratesHold size rate since acked rest

def rttsHold (rtt sentTime number : Nat) : List Call → Bool
  | [] => true
  | .ackEvent now event _ :: rest =>
    (event.ackedPackets.all fun packet => packet.packetNumber ≠ number || now - sentTime ≤ rtt) &&
      rttsHold rtt sentTime number rest
  | _ :: rest => rttsHold rtt sentTime number rest

def holds (tuning : BbrTuning) (size : Nat → Nat) (rate rtt : Nat) (rest : List Call) (call : Call) : Bool :=
  call.time?.all (· < 2 ^ 64) && (call.anchor? tuning).all (fun since => ratesHold size rate since 0 rest) &&
    match call with
    | .sent now bytes number _ => bytes ≤ size number && rttsHold rtt now number rest
    | _ => true

def deliveredCheck (tuning : BbrTuning) (size : Nat → Nat) (rate rtt : Nat) : List Call → Bool
  | [] => true
  | call :: rest => holds tuning size rate rtt rest call && deliveredCheck tuning size rate rtt rest

section
variable {tuning : BbrTuning} {size : Nat → Nat} {rate rtt : Nat}

theorem le_of_ratesHold {since acked now : Nat} {event : AckEvent} {draw : Fin 7} {between after : List Call}
    (h : ratesHold size rate since acked (between ++ .ackEvent now event draw :: after)) (hlt : since < now) :
    (acked + acknowledged size (between ++ [.ackEvent now event draw])) * 1000000000 ≤ rate * (now - since) := by
  induction between generalizing acked with
  | nil =>
    have hrate := (Bool.and_eq_true_iff.mp h).1
    simpa [acknowledged, Nat.not_le.mpr hlt] using hrate
  | cons call between ih =>
    have hsum : acked + acknowledged size (call :: between ++ [.ackEvent now event draw]) =
        acked + call.acknowledges size + acknowledged size (between ++ [.ackEvent now event draw]) := by
      simp [acknowledged, Nat.add_assoc]
    rw [hsum]
    cases call with
    | ackEvent now' event' draw' => exact ih (Bool.and_eq_true_iff.mp h).2
    | _ => exact ih h

theorem le_of_rttsHold {sentTime number now : Nat} {event : AckEvent} {draw : Fin 7} {between after : List Call}
    (h : rttsHold rtt sentTime number (between ++ .ackEvent now event draw :: after)) {packet : AckedPacketInfo}
    (hpacket : packet ∈ event.ackedPackets) (hnumber : packet.packetNumber = number) : now - sentTime ≤ rtt := by
  induction between with
  | nil =>
    have hall := List.all_eq_true.mp (Bool.and_eq_true_iff.mp h).1 packet hpacket
    simpa [hnumber] using hall
  | cons call between ih =>
    cases call with
    | ackEvent now' event' draw' => exact ih (Bool.and_eq_true_iff.mp h).2
    | _ => exact ih h

theorem holds_of_check {before after : List Call} {call : Call}
    (h : deliveredCheck tuning size rate rtt (before ++ call :: after)) : holds tuning size rate rtt after call := by
  induction before with
  | nil => exact (Bool.and_eq_true_iff.mp h).1
  | cons _ before ih => exact ih (Bool.and_eq_true_iff.mp h).2

theorem delivered_of_check {calls : List Call} (h : deliveredCheck tuning size rate rtt calls) :
    Delivered tuning size rate rtt calls where
  sizes now bytes number bytesInFlight hmem := by
    obtain ⟨before, after, rfl⟩ := List.append_of_mem hmem
    have hholds := (Bool.and_eq_true_iff.mp (holds_of_check h)).2
    exact of_decide_eq_true (Bool.and_eq_true_iff.mp hholds).1
  timely call hmem now hnow := by
    obtain ⟨before, after, rfl⟩ := List.append_of_mem hmem
    have hholds := (Bool.and_eq_true_iff.mp (Bool.and_eq_true_iff.mp (holds_of_check h)).1).1
    rw [hnow] at hholds
    exact of_decide_eq_true hholds
  rate_le before earlier between now event draw after hsplit since hsince hlt := by
    rw [hsplit, List.append_assoc, List.cons_append] at h
    have hholds := (Bool.and_eq_true_iff.mp (Bool.and_eq_true_iff.mp (holds_of_check h)).1).2
    rw [hsince] at hholds
    exact Nat.zero_add (acknowledged size _) ▸ le_of_ratesHold hholds hlt
  rtt_le before sentTime bytes number bytesInFlight between now event draw after hsplit packet hpacket hnumber := by
    rw [hsplit, List.append_assoc, List.cons_append] at h
    have hholds := (Bool.and_eq_true_iff.mp (holds_of_check h)).2
    exact le_of_rttsHold (Bool.and_eq_true_iff.mp hholds).2 hpacket hnumber

end

end Bbr.Call

namespace BandwidthSampler
open Bbr.Call

theorem bwFromDelta_ok (bytes : Nat) {delta : Nat} (h : delta < 2 ^ 64) :
    bwFromDelta bytes delta =
      .ok (if delta = 0 then none else some (min (bytes * 1000000000) u64Max / delta)) := by
  unfold bwFromDelta
  rw [Nat.mod_eq_of_lt h]
  split_ifs <;> rfl

theorem bwFromDelta_le {bytes delta rate : Nat} (hdelta : delta < 2 ^ 64)
    (hbytes : 0 < delta → bytes * 1000000000 ≤ rate * delta) :
    ∃ measured, bwFromDelta bytes delta = .ok measured ∧ ∀ bandwidth ∈ measured, bandwidth ≤ rate := by
  rw [bwFromDelta_ok bytes hdelta]
  refine ⟨_, rfl, ?_⟩
  split
  · nofun
  next hpos =>
    intro bandwidth hbandwidth
    cases hbandwidth
    have hle := hbytes (Nat.pos_of_ne_zero hpos)
    exact Nat.div_le_of_le_mul (Nat.le_trans (Nat.min_le_left _ _) (Nat.mul_comm rate delta ▸ hle))

theorem select_min_le (sendRate : Nat) {ackRate rate : Nat} (h : ackRate ≤ rate) (hrate : rate < infBandwidth) :
    SampleBandwidthStrategy.select .min sendRate ackRate ≤ rate := by
  have hfinite : finiteRate ackRate = some ackRate := if_pos (Nat.ne_of_lt (Nat.lt_of_le_of_lt h hrate))
  unfold SampleBandwidthStrategy.select
  rw [hfinite]
  cases finiteRate sendRate with
  | none => exact h
  | some sendRate => exact Nat.le_trans (Nat.min_le_right _ _) h

structure Counted (ackTime bytes : Nat) (sampler sampler' : BandwidthSampler) : Prop where
  states : sampler'.connectionStateMap = sampler.connectionStateMap
  avoidance : sampler'.overestimateAvoidance = sampler.overestimateAvoidance
  legacyTime : sampler'.lastLegacyAckTime = sampler.lastLegacyAckTime
  legacyTotal : sampler'.lastLegacyTotalAcked = sampler.lastLegacyTotalAcked
  tracker : sampler'.maxAckHeightTracker = sampler.maxAckHeightTracker
  total : sampler'.totalBytesAcked ≤ sampler.totalBytesAcked + bytes
  ackTime : sampler'.lastAckedPacketAckTime = sampler.lastAckedPacketAckTime ∨
    sampler'.lastAckedPacketAckTime = some ackTime

theorem Counted.trans {ackTime bytes bytes' : Nat} {sampler sampler' sampler'' : BandwidthSampler}
    (h : Counted ackTime bytes sampler sampler') (h' : Counted ackTime bytes' sampler' sampler'') :
    Counted ackTime (bytes + bytes') sampler sampler'' where
  states := h'.states.trans h.states
  avoidance := h'.avoidance.trans h.avoidance
  legacyTime := h'.legacyTime.trans h.legacyTime
  legacyTotal := h'.legacyTotal.trans h.legacyTotal
  tracker := h'.tracker.trans h.tracker
  total := Nat.le_trans h'.total (Nat.add_assoc .. ▸ Nat.add_le_add_right h.total bytes')
  ackTime := h'.ackTime.elim (fun hsame => h.ackTime.imp hsame.trans hsame.trans) .inr

structure SampleWithin (rate rtt : Nat) (sample : BandwidthSample) : Prop where
  bandwidth : sample.bandwidth ≤ rate
  rtt : ∀ sampleRtt ∈ sample.rtt, sampleRtt ≤ rtt

/-- What the packet was sent with, for an acknowledgement of it at this time after which at most so many bytes
have been acknowledged. -/
structure Measurable (rate rtt now total : Nat) (sent : ConnectionStateOnSentPacket) : Prop where
  sentTime : sent.sentTime < 2 ^ 64
  rtt : now - sent.sentTime ≤ rtt
  rate : ∀ since ∈ sent.lastAckedPacketAckTime, since < now →
    (total - sent.sendTimeState.totalBytesAcked) * 1000000000 ≤ rate * (now - since)

section
variable {strategies : SamplerStrategies} {sampler : BandwidthSampler} {rate rtt now total : Nat}

theorem sendRate_ok {sent : ConnectionStateOnSentPacket} (h : sent.sentTime < 2 ^ 64) (anchor : Nat × Nat) :
    ∃ measured, sendRate sent anchor = .ok measured := by
  unfold sendRate
  split
  · rw [bwFromDelta_ok _ (Nat.lt_of_le_of_lt (Nat.sub_le _ _) h)]
    exact ⟨_, rfl⟩
  · exact ⟨_, rfl⟩

theorem count_eq (havoidance : sampler.overestimateAvoidance = false) (sent : ConnectionStateOnSentPacket) :
    sampler.count now sent =
      { sampler with
        totalBytesAcked := saturatingAdd sampler.totalBytesAcked sent.size
        totalBytesSentAtLastAckedPacket := sent.sendTimeState.totalBytesSent
        lastAckedPacketSentTime := some sent.sentTime
        lastAckedPacketAckTime := some now } := by
  unfold count
  rw [if_neg (by simp [havoidance])]

theorem counted_count {bytes : Nat} (havoidance : sampler.overestimateAvoidance = false)
    {sent : ConnectionStateOnSentPacket} (hsize : sent.size ≤ bytes) (number : Option Nat) :
    Counted now bytes sampler (count { sampler with lastAckedPacket := number } now sent) := by
  rw [@count_eq { sampler with lastAckedPacket := number } _ havoidance]
  exact ⟨rfl, rfl, rfl, rfl, rfl, Nat.le_trans (Nat.min_le_left _ _) (Nat.add_le_add_left hsize _), .inr rfl⟩

theorem onPacketAcknowledged_ok {number bytes : Nat} (hstrategy : strategies.sampleBandwidth = .min)
    (havoidance : sampler.overestimateAvoidance = false) (hrate : rate < infBandwidth) (hnow : now < 2 ^ 64)
    (hsent : ∀ sent, sampler.connectionStateMap.get number = some sent → sent.size ≤ bytes ∧
      sampler.totalBytesAcked + bytes ≤ total ∧ Measurable rate rtt now total sent) :
    ∃ sampler' sample, sampler.onPacketAcknowledged strategies now number = .ok (sampler', sample) ∧
      Counted now bytes sampler sampler' ∧ SampleWithin rate rtt sample := by
  have hnone : SampleWithin rate rtt { sendRate := infBandwidth } := ⟨Nat.zero_le _, nofun⟩
  unfold onPacketAcknowledged
  dsimp only
  cases hget : sampler.connectionStateMap.get number with
  | none => exact ⟨_, _, rfl, ⟨rfl, rfl, rfl, rfl, rfl, Nat.le_add_right _ _, .inl rfl⟩, hnone⟩
  | some sent =>
    obtain ⟨hsize, htotal, hmeasurable⟩ := hsent sent hget
    have hcounted := @counted_count sampler now bytes havoidance sent hsize (some number)
    dsimp only
    generalize count { sampler with lastAckedPacket := some number } now sent = counted at hcounted ⊢
    cases hsentTime : sent.lastAckedPacketSentTime with
    | none => exact ⟨_, _, rfl, hcounted, hnone⟩
    | some lastSentTime =>
      cases hackTime : sent.lastAckedPacketAckTime with
      | none => exact ⟨_, _, rfl, hcounted, hnone⟩
      | some lastAckTime =>
        obtain ⟨sendRate, hsendRate⟩ := sendRate_ok hmeasurable.sentTime
          (sendRateAnchor strategies.sendRateAnchor sampler sent lastSentTime)
        have hplain : counted.ackRateAnchor sent lastAckTime = (counted, lastAckTime, sent.sendTimeState.totalBytesAcked) :=
          if_neg (by simp [hcounted.avoidance, havoidance])
        have hbytes : 0 < now - lastAckTime →
            (counted.totalBytesAcked - sent.sendTimeState.totalBytesAcked) * 1000000000 ≤ rate * (now - lastAckTime) := by
          intro hpos
          refine Nat.le_trans ?_ (hmeasurable.rate lastAckTime hackTime (Nat.lt_of_sub_pos hpos))
          exact Nat.mul_le_mul_right _ (Nat.sub_le_sub_right (Nat.le_trans hcounted.total htotal) _)
        obtain ⟨measured, hmeasured, hwithin⟩ := bwFromDelta_le (Nat.lt_of_le_of_lt (Nat.sub_le now lastAckTime) hnow) hbytes
        dsimp only
        rw [hsendRate, ok_bind, hplain]
        dsimp only
        rw [hmeasured, ok_bind]
        cases measured with
        | none => exact ⟨_, _, rfl, hcounted, hnone⟩
        | some ackRate =>
          refine ⟨_, _, rfl, hcounted, ?_, fun sampleRtt h => ?_⟩
          · rw [hstrategy]
            exact select_min_le sendRate (hwithin ackRate rfl) hrate
          · cases h
            exact hmeasurable.rtt

end

structure EventWithin (rate rtt : Nat) (sample : CongestionEventSample) : Prop where
  bandwidth : sample.sampleMaxBandwidth ≤ rate
  nonAppLimited : sample.sampleMaxBandwidthNonAppLimited ≤ rate
  rtt : ∀ sampleRtt ∈ sample.sampleRtt, sampleRtt ≤ rtt

def sizes (size : Nat → Nat) (packets : List AckedPacketInfo) : Nat :=
  (packets.map fun packet => size packet.packetNumber).sum

section
variable {profile : Profile} {rounding : Rounding} {strategies : SamplerStrategies} {sampler : BandwidthSampler}
  {rate rtt now : Nat} {size : Nat → Nat}

theorem AckLoop.take_sampler (loop : AckLoop) (sample : BandwidthSample) : (loop.take sample).sampler = loop.sampler := by
  unfold take
  split <;> rfl

theorem EventWithin.takeRtt {eventSample : CongestionEventSample} {sample : BandwidthSample}
    (h : EventWithin rate rtt eventSample) (hsample : SampleWithin rate rtt sample) :
    EventWithin rate rtt (takeRtt eventSample sample) := by
  unfold BandwidthSampler.takeRtt
  split
  next sampleRtt current hrtt hcurrent =>
    refine ⟨h.bandwidth, h.nonAppLimited, fun taken htaken => ?_⟩
    cases htaken
    exact Nat.le_trans (Nat.min_le_right _ _) (hsample.rtt sampleRtt hrtt)
  next sampleRtt hrtt hcurrent =>
    refine ⟨h.bandwidth, h.nonAppLimited, fun taken htaken => ?_⟩
    cases htaken
    exact hsample.rtt _ hrtt
  next => exact h

theorem EventWithin.takeNonAppLimited {eventSample : CongestionEventSample} {sample : BandwidthSample}
    (h : EventWithin rate rtt eventSample) (hsample : SampleWithin rate rtt sample) :
    EventWithin rate rtt (takeNonAppLimited eventSample sample) := by
  unfold BandwidthSampler.takeNonAppLimited
  split
  · exact ⟨h.bandwidth, Nat.max_le.mpr ⟨h.nonAppLimited, hsample.bandwidth⟩, h.rtt⟩
  · exact h

theorem EventWithin.takeMax {eventSample : CongestionEventSample} {sample : BandwidthSample}
    (h : EventWithin rate rtt eventSample) (hsample : SampleWithin rate rtt sample) :
    EventWithin rate rtt (takeMax eventSample sample) := by
  unfold BandwidthSampler.takeMax
  split
  · exact ⟨hsample.bandwidth, h.nonAppLimited, h.rtt⟩
  · exact h

theorem AckLoop.take_within {loop : AckLoop} {sample : BandwidthSample} (h : EventWithin rate rtt loop.eventSample)
    (hsample : SampleWithin rate rtt sample) : EventWithin rate rtt (loop.take sample).eventSample := by
  unfold take
  split
  · exact h
  · have htaken := ((h.takeRtt hsample).takeNonAppLimited hsample).takeMax hsample
    exact ⟨htaken.bandwidth, htaken.nonAppLimited, htaken.rtt⟩

theorem turn_ok {loop : AckLoop} {packet : AckedPacketInfo} {bytes total : Nat}
    (hstrategy : strategies.sampleBandwidth = .min) (hrate : rate < infBandwidth) (hnow : now < 2 ^ 64)
    (havoidance : loop.sampler.overestimateAvoidance = false) (h : EventWithin rate rtt loop.eventSample)
    (hsent : ∀ sent, loop.sampler.connectionStateMap.get packet.packetNumber = some sent → sent.size ≤ bytes ∧
      loop.sampler.totalBytesAcked + bytes ≤ total ∧ Measurable rate rtt now total sent) :
    ∃ loop', loop.turn strategies now packet = .ok loop' ∧ Counted now bytes loop.sampler loop'.sampler ∧
      EventWithin rate rtt loop'.eventSample := by
  obtain ⟨sampler', sample, hack, hcounted, hwithin⟩ := onPacketAcknowledged_ok hstrategy havoidance hrate hnow hsent
  let acked : AckLoop := { loop with sampler := sampler', largestAckedPacket := some packet.packetNumber }
  have hturn : loop.turn strategies now packet = .ok (acked.take sample) := by
    rw [AckLoop.turn, hack]
    rfl
  exact ⟨_, hturn, (acked.take_sampler sample).symm ▸ hcounted, @AckLoop.take_within rate rtt acked sample h hwithin⟩

theorem turns_ok {packets : List AckedPacketInfo} (hstrategy : strategies.sampleBandwidth = .min)
    (hrate : rate < infBandwidth) (hnow : now < 2 ^ 64) (havoidance : sampler.overestimateAvoidance = false)
    (hsent : ∀ packet ∈ packets, ∀ sent, sampler.connectionStateMap.get packet.packetNumber = some sent →
      sent.size ≤ size packet.packetNumber ∧
        Measurable rate rtt now (sampler.totalBytesAcked + sizes size packets) sent) :
    ∃ loop, packets.foldlM (AckLoop.turn strategies now) { sampler } = .ok loop ∧
      Counted now (sizes size packets) sampler loop.sampler ∧ EventWithin rate rtt loop.eventSample := by
  have hstart : Counted now (sizes size []) sampler sampler ∧ EventWithin rate rtt {} :=
    ⟨⟨rfl, rfl, rfl, rfl, rfl, Nat.le_refl _, .inl rfl⟩, Nat.zero_le _, Nat.zero_le _, nofun⟩
  refine foldlM_ok_of_history (I := fun done (loop : AckLoop) =>
    Counted now (sizes size done) sampler loop.sampler ∧ EventWithin rate rtt loop.eventSample) ?_ hstart
  rintro before packet after loop rfl ⟨hcounted, hwithin⟩
  have hsum : sizes size (before ++ packet :: after) =
      sizes size before + size packet.packetNumber + sizes size after := by
    simp [sizes, Nat.add_assoc]
  obtain ⟨loop', hloop', hcounted', hwithin'⟩ := @turn_ok strategies rate rtt now loop packet (size packet.packetNumber)
    (sampler.totalBytesAcked + sizes size (before ++ packet :: after)) hstrategy hrate hnow
    (hcounted.avoidance.trans havoidance) hwithin fun sent hget => by
      obtain ⟨hsize, hmeasurable⟩ := hsent packet (by simp) sent (hcounted.states ▸ hget)
      have htotal := hcounted.total
      exact ⟨hsize, by omega, hmeasurable⟩
  have hall := hcounted.trans hcounted'
  have hsizes : sizes size (before ++ [packet]) = sizes size before + size packet.packetNumber := by simp [sizes]
  exact ⟨loop', hloop', hsizes ▸ hall, hwithin'⟩

theorem loseAll_eq (sampler : BandwidthSampler) (lostPackets : List LostPacketInfo) :
    ∃ totalBytesLost, (sampler.loseAll lostPackets).1 = { sampler with totalBytesLost } := by
  unfold loseAll
  generalize ({} : SendTimeState) = state
  induction lostPackets generalizing sampler state with
  | nil => exact ⟨_, rfl⟩
  | cons packet lostPackets ih => exact ih _ _

theorem fuse_le (strategy : AckEventBandwidthFusionStrategy) (legacyBandwidth maxSendRate : Nat) :
    strategy.fuse legacyBandwidth maxSendRate ≤ legacyBandwidth := by
  unfold AckEventBandwidthFusionStrategy.fuse
  split
  · exact Nat.le_refl _
  · split
    · exact Nat.le_refl _
    · exact Nat.min_le_left _ _

theorem fuseLegacy_ok {loop : AckLoop} (hnow : now < 2 ^ 64) (eventAppLimited : Bool) (bandwidthEstimate : Nat)
    (h : EventWithin rate rtt loop.eventSample)
    (hlegacy : ∀ since ∈ loop.sampler.lastLegacyAckTime, since < now →
      (loop.sampler.totalBytesAcked - loop.sampler.lastLegacyTotalAcked) * 1000000000 ≤ rate * (now - since)) :
    ∃ fused, fuseLegacy strategies loop now eventAppLimited bandwidthEstimate = .ok fused ∧
      EventWithin rate rtt fused.1 := by
  unfold fuseLegacy
  cases hsince : loop.sampler.lastLegacyAckTime with
  | none => exact ⟨_, rfl, h⟩
  | some since =>
    obtain ⟨measured, hmeasured, hwithin⟩ := bwFromDelta_le (Nat.lt_of_le_of_lt (Nat.sub_le now since) hnow)
      fun hpos => hlegacy since hsince (Nat.lt_of_sub_pos hpos)
    dsimp only
    rw [hmeasured, ok_bind]
    cases measured with
    | none => exact ⟨_, rfl, h⟩
    | some legacyBandwidth =>
      refine ⟨_, rfl, ?_⟩
      dsimp only
      split
      · exact ⟨Nat.le_trans (fuse_le ..) (hwithin _ rfl), h.nonAppLimited, h.rtt⟩
      · exact h

theorem onAckEventEnd_ok {round roundTripCount : Nat} (havoidance : sampler.overestimateAvoidance = false)
    (htracker : sampler.maxAckHeightTracker.maxAckHeightFilter.Settled round) (hround : round ≤ roundTripCount)
    (htime : sampler.lastAckedPacketAckTime.getD 0 < 2 ^ 64) (bandwidthEstimate : Nat) (isNewMaxBandwidth : Bool) :
    ∃ afterLastAckEvent maxAckHeightTracker extraAcked,
      sampler.onAckEventEnd profile rounding bandwidthEstimate isNewMaxBandwidth roundTripCount =
        .ok ({ sampler with totalBytesAckedAfterLastAckEvent := afterLastAckEvent, maxAckHeightTracker }, extraAcked) ∧
      maxAckHeightTracker.maxAckHeightFilter.Settled roundTripCount := by
  unfold onAckEventEnd
  dsimp only
  split
  · exact ⟨_, _, _, rfl, htracker.mono hround⟩
  · obtain ⟨tracker, extraAcked, hupdate, hsettled, -⟩ := @MaxAckHeightTracker.update_ok round profile rounding
      sampler.maxAckHeightTracker
      { bandwidthEstimate := .ofNat bandwidthEstimate
        isNewMaxBandwidth
        roundTripCount
        lastSentPacketNumber := sampler.lastSentPacket
        lastAckedPacketNumber := sampler.lastAckedPacket
        ackTime := sampler.lastAckedPacketAckTime.getD 0
        bytesAcked := sampler.totalBytesAcked - sampler.totalBytesAckedAfterLastAckEvent } htracker hround htime
    rw [hupdate, ok_bind]
    dsimp only
    rw [if_neg (by simp [havoidance])]
    exact ⟨_, _, _, rfl, hsettled⟩

structure Observed (now bytes round : Nat) (sampler sampler' : BandwidthSampler) : Prop where
  states : sampler'.connectionStateMap = sampler.connectionStateMap
  avoidance : sampler'.overestimateAvoidance = sampler.overestimateAvoidance
  total : sampler'.totalBytesAcked ≤ sampler.totalBytesAcked + bytes
  ackTime : sampler'.lastAckedPacketAckTime = sampler.lastAckedPacketAckTime ∨
    sampler'.lastAckedPacketAckTime = some now
  legacy : sampler'.lastLegacyAckTime = sampler.lastLegacyAckTime ∧
      sampler'.lastLegacyTotalAcked = sampler.lastLegacyTotalAcked ∨
    sampler'.lastLegacyAckTime = some now ∧ sampler'.lastLegacyTotalAcked = sampler'.totalBytesAcked
  tracker : sampler'.maxAckHeightTracker.maxAckHeightFilter.Settled round

theorem settle_spec (strategies : SamplerStrategies) (sampler : BandwidthSampler) (event : CongestionEvent)
    (bytesAcked : Nat) (largestAckedPacket : Option Nat) :
    ∃ lastLegacyAckTime lastLegacyTotalAcked isAppLimited endOfAppLimitedPhase,
      sampler.settle strategies event bytesAcked largestAckedPacket =
        { sampler with lastLegacyAckTime, lastLegacyTotalAcked, isAppLimited, endOfAppLimitedPhase } ∧
      (lastLegacyAckTime = sampler.lastLegacyAckTime ∧ lastLegacyTotalAcked = sampler.lastLegacyTotalAcked ∨
        lastLegacyAckTime = some event.ackTime ∧ lastLegacyTotalAcked = sampler.totalBytesAcked) := by
  unfold settle
  by_cases hacked : bytesAcked > 0
  · simp only [if_pos hacked]
    split
    all_goals exact ⟨_, _, _, _, rfl, .inr ⟨rfl, rfl⟩⟩
  · simp only [if_neg hacked]
    split
    all_goals exact ⟨_, _, _, _, rfl, .inl ⟨rfl, rfl⟩⟩

theorem onCongestionEvent_ok {event : CongestionEvent} {round : Nat} (hstrategy : strategies.sampleBandwidth = .min)
    (hrate : rate < infBandwidth) (hnow : event.ackTime < 2 ^ 64) (havoidance : sampler.overestimateAvoidance = false)
    (htracker : sampler.maxAckHeightTracker.maxAckHeightFilter.Settled round) (hround : round ≤ event.roundTripCount)
    (htime : ∀ time ∈ sampler.lastAckedPacketAckTime, time < 2 ^ 64)
    (hsent : ∀ packet ∈ event.ackedPackets, ∀ sent, sampler.connectionStateMap.get packet.packetNumber = some sent →
      sent.size ≤ size packet.packetNumber ∧
        Measurable rate rtt event.ackTime (sampler.totalBytesAcked + sizes size event.ackedPackets) sent)
    (hlegacy : ∀ since ∈ sampler.lastLegacyAckTime, since < event.ackTime →
      (sampler.totalBytesAcked + sizes size event.ackedPackets - sampler.lastLegacyTotalAcked) * 1000000000 ≤
        rate * (event.ackTime - since)) :
    ∃ sampler' sample, sampler.onCongestionEvent profile rounding strategies event = .ok (sampler', sample) ∧
      Observed event.ackTime (sizes size event.ackedPackets) event.roundTripCount sampler sampler' ∧
      EventWithin rate rtt sample := by
  obtain ⟨totalBytesLost, hlost⟩ := sampler.loseAll_eq event.lostPackets
  unfold onCongestionEvent
  dsimp only
  split
  · refine ⟨_, _, rfl, ?_, Nat.zero_le _, Nat.zero_le _, nofun⟩
    rw [hlost]
    exact ⟨rfl, rfl, Nat.le_add_right _ _, .inl rfl, .inl ⟨rfl, rfl⟩, htracker.mono hround⟩
  · rw [hlost]
    obtain ⟨loop, hloop, hcounted, hwithin⟩ :=
      @turns_ok strategies { sampler with totalBytesLost } rate rtt event.ackTime size event.ackedPackets hstrategy hrate
        hnow havoidance hsent
    obtain ⟨fused, hfused, hwithin⟩ := @fuseLegacy_ok strategies rate rtt event.ackTime loop hnow event.eventAppLimited
      (if loop.sampler.limitMaxAckHeightTrackerBySendRate then
        max (max event.maxBandwidth loop.eventSample.sampleMaxBandwidth) loop.maxSendRate
        else max event.maxBandwidth loop.eventSample.sampleMaxBandwidth) hwithin (by
      intro since hsince hlt
      rw [hcounted.legacyTotal]
      refine Nat.le_trans ?_ (hlegacy since (hcounted.legacyTime ▸ hsince) hlt)
      exact Nat.mul_le_mul_right _ (Nat.sub_le_sub_right hcounted.total _))
    obtain ⟨_, tracker, extraAcked, hend, hsettled⟩ := @onAckEventEnd_ok profile rounding loop.sampler round event.roundTripCount
      (hcounted.avoidance.trans havoidance) (hcounted.tracker ▸ htracker) hround (by
        rcases hcounted.ackTime with h | h
        · rw [h]
          cases hlast : sampler.lastAckedPacketAckTime with
          | none => decide
          | some time => exact htime time hlast
        · rw [h]
          exact hnow) (min event.estBandwidthUpperBound fused.2)
      (loop.eventSample.sampleMaxBandwidth > event.maxBandwidth)
    rw [hloop, ok_bind, hfused, ok_bind, hend, ok_bind]
    obtain ⟨_, _, _, _, hsettle, hlegacy'⟩ := settle_spec strategies _ event _ loop.largestAckedPacket
    refine ⟨_, _, rfl, ?_, hwithin.bandwidth, hwithin.nonAppLimited, hwithin.rtt⟩
    rw [hsettle]
    exact ⟨hcounted.states, hcounted.avoidance, hcounted.total, hcounted.ackTime,
      hlegacy'.imp_left fun h => ⟨h.1.trans hcounted.legacyTime, h.2.trans hcounted.legacyTotal⟩, hsettled⟩

end

end BandwidthSampler

namespace Bbr
open BandwidthSampler
variable {profile : Profile} {rounding : Rounding} {tuning : BbrTuning} {bbr bbr' : Bbr} {rate rtt : Nat}

structure Within (rate rtt : Nat) (bbr : Bbr) : Prop where
  bdp : max rtt 100000000 / 1000 * rate < usizeSize
  rtt_lt : rtt < 2 ^ 64
  minRtt : bbr.minRtt ≤ rtt
  bandwidth : bbr.bandwidthEstimate ≤ rate

theorem Within.getTargetCwnd_ok (h : Within rate rtt bbr) (profile : Profile) (rounding : Rounding) (gain : Rat) :
    ∃ target, bbr.getTargetCwnd profile rounding gain = .ok target := by
  have hmodel : bbr.minRttForModel ≤ max rtt 100000000 := by
    unfold minRttForModel
    split
    · exact Nat.le_trans h.minRtt (Nat.le_max_left _ _)
    · exact Nat.le_max_right _ _
  have hbdp : bbr.minRttForModel / 1000 % usizeSize * bbr.bandwidthEstimate < usizeSize :=
    Nat.lt_of_le_of_lt (Nat.mul_le_mul (Nat.le_trans (Nat.mod_le _ _) (Nat.div_le_div_right hmodel)) h.bandwidth) h.bdp
  unfold getTargetCwnd
  rw [mulUsize_ok profile hbdp, ok_bind]
  dsimp only
  split
  all_goals exact ⟨_, rfl⟩

theorem Within.congr (h : Within rate rtt bbr) (hrtt : bbr'.minRtt = bbr.minRtt)
    (hfilter : bbr'.maxBandwidth = bbr.maxBandwidth) : Within rate rtt bbr' where
  bdp := h.bdp
  rtt_lt := h.rtt_lt
  minRtt := hrtt ▸ h.minRtt
  bandwidth := by
    rw [bandwidthEstimate, hfilter]
    exact h.bandwidth

theorem Within.shifts (h : Within rate rtt bbr) (hshifts : Shifts bbr bbr') : Within rate rtt bbr' :=
  h.congr hshifts.minRtt (congrArg Held.maxBandwidth hshifts.held)

theorem Within.openEvent_ok (h : Within rate rtt bbr) (profile : Profile) (rounding : Rounding) (tuning : BbrTuning)
    (event : AckEvent) : ∃ opened, bbr.openEvent profile rounding tuning event = .ok opened := by
  obtain ⟨target, htarget⟩ := h.getTargetCwnd_ok profile rounding 1
  have hmaybe : ∃ marked, bbr.maybeAppLimited profile rounding tuning event.priorInFlight event.appLimited =
      .ok marked := by
    unfold maybeAppLimited
    rw [htarget, ok_bind]
    dsimp only
    split
    all_goals exact ⟨_, rfl⟩
  obtain ⟨marked, hmarked⟩ := hmaybe
  unfold openEvent
  rw [hmarked, ok_bind]
  cases event.lastAckedPacket with
  | none => exact ⟨_, rfl⟩
  | some lastAckedPacket => exact ⟨_, rfl⟩

theorem Within.applyCycleGain_ok (h : Within rate rtt bbr) (profile : Profile) (rounding : Rounding) :
    ∃ applied, bbr.applyCycleGain profile rounding = .ok applied := by
  obtain ⟨target, htarget⟩ := h.getTargetCwnd_ok profile rounding 1
  unfold applyCycleGain
  dsimp only
  split
  · rw [htarget, ok_bind]
    split
    all_goals exact ⟨_, rfl⟩
  · exact ⟨_, rfl⟩

theorem Within.shouldAdvanceGainCycling_ok (h : Within rate rtt bbr) (profile : Profile) (rounding : Rounding)
    (now priorInFlight : Nat) (hasLosses : Bool) :
    ∃ advance, bbr.shouldAdvanceGainCycling profile rounding now priorInFlight hasLosses = .ok advance := by
  obtain ⟨target, htarget⟩ := h.getTargetCwnd_ok profile rounding 1
  obtain ⟨target', htarget'⟩ := h.getTargetCwnd_ok profile rounding bbr.pacingGain
  unfold shouldAdvanceGainCycling
  simp only [htarget, htarget', ok_bind]
  split_ifs
  all_goals exact ⟨_, rfl⟩

theorem Within.turnCycle_ok (h : Within rate rtt bbr) (profile : Profile) (rounding : Rounding) (now : Nat)
    (event : AckEvent) : ∃ turned, bbr.turnCycle profile rounding now event = .ok turned := by
  unfold turnCycle
  split
  case isFalse => exact ⟨_, rfl⟩
  case isTrue =>
    obtain ⟨advance, hadvance⟩ := h.shouldAdvanceGainCycling_ok profile rounding now event.priorInFlight
      (!event.lostPackets.isEmpty)
    unfold updateGainCyclePhase
    rw [hadvance, ok_bind]
    split
    · exact @Within.applyCycleGain_ok { bbr with
        currentCycleOffset := bbr.currentCycleOffset + 1, lastCycleStart := some now } rate rtt (h.congr rfl rfl) profile
        rounding
    · exact ⟨_, rfl⟩

theorem Within.maybeExitStartupOrDrain_ok (h : Within rate rtt bbr) (profile : Profile) (rounding : Rounding)
    (now : Nat) (draw : Fin 7) : ∃ exited, bbr.maybeExitStartupOrDrain profile rounding now draw = .ok exited := by
  unfold maybeExitStartupOrDrain
  by_cases hdrain : bbr.mode = .startup ∧ bbr.isAtFullBandwidth
  · obtain ⟨target, htarget⟩ := @Within.getTargetCwnd_ok
      { bbr with mode := .drain, pacingGain := bbr.drainGain, cwndGain := bbr.highCwndGain } rate rtt
      (h.congr rfl rfl) profile rounding 1
    simp only [if_pos hdrain, if_true, htarget, ok_bind]
    split
    all_goals exact ⟨_, rfl⟩
  · obtain ⟨target, htarget⟩ := h.getTargetCwnd_ok profile rounding 1
    simp only [if_neg hdrain, htarget, ok_bind]
    split_ifs
    all_goals exact ⟨_, rfl⟩

theorem Within.moveOn_ok (h : Within rate rtt bbr) {sample : CongestionEventSample}
    (hsample : ∀ sampleRtt ∈ sample.sampleRtt, sampleRtt ≤ rtt) (profile : Profile) (rounding : Rounding)
    (tuning : BbrTuning) (now : Nat) (event : AckEvent) (isRoundStart : Bool) (draw : Fin 7) :
    ∃ moved, bbr.moveOn profile rounding tuning now event sample isRoundStart draw = .ok moved := by
  obtain ⟨minRtt, minRttTimestamp, hrtt, hmin⟩ := bbr.takeRtt_spec now sample
  have hwithin : Within rate rtt { bbr with minRtt, minRttTimestamp } :=
    ⟨h.bdp, h.rtt_lt, hmin.elim (fun hsame => hsame ▸ h.minRtt) (hsample minRtt), h.bandwidth⟩
  obtain ⟨cycled, hcycled⟩ := hwithin.turnCycle_ok profile rounding now event
  have hwithin := ((hwithin.shifts (shifts_turnCycle hcycled)).shifts
    (cycled.shifts_reviewRound rounding tuning event sample isRoundStart)).shifts
      (shifts_ackedBytes _ (saturatingAdd (cycled.reviewRound rounding tuning event sample isRoundStart).ackedBytes
        sample.bytesAcked))
  obtain ⟨exited, hexited⟩ := hwithin.maybeExitStartupOrDrain_ok profile rounding now draw
  unfold moveOn
  rw [hrtt, hcycled, ok_bind]
  dsimp only
  rw [hexited, ok_bind]
  exact ⟨_, rfl⟩

theorem Within.setLimits_ok (h : Within rate rtt bbr) (profile : Profile) (rounding : Rounding)
    (sample : CongestionEventSample) : ∃ limited, bbr.setLimits profile rounding sample = .ok limited := by
  have hpacing : ∃ paced, bbr.calculatePacingRate rounding = .ok paced := by
    unfold calculatePacingRate
    rw [bwFromDelta_ok bbr.initCwnd (Nat.lt_of_le_of_lt h.minRtt h.rtt_lt)]
    dsimp only
    split_ifs
    all_goals exact ⟨_, rfl⟩
  obtain ⟨paced, hpaced⟩ := hpacing
  obtain ⟨pacingRate, rfl, -⟩ := calculatePacingRate_spec hpaced
  obtain ⟨target, htarget⟩ := @Within.getTargetCwnd_ok { bbr with pacingRate } rate rtt (h.congr rfl rfl) profile rounding
    bbr.cwndGain
  unfold setLimits
  rw [hpaced, ok_bind]
  unfold calculateCwnd
  simp only [htarget, ok_bind]
  split
  all_goals exact ⟨_, rfl⟩

end Bbr

end Hysteria.Quinn
