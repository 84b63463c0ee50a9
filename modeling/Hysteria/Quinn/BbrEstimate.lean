import Hysteria.Quinn.BbrDelivery

/-! Over whole runs: where acknowledgements arrive no faster than some rate the controller never panics and never
estimates more than that rate. -/
namespace Hysteria.Quinn
open Lib

namespace Bbr
open Call BandwidthSampler

section
variable {tuning : BbrTuning} {size : Nat → Nat} {rate rtt : Nat} {before : List Call} {call : Call}

theorem time_of_anchor {time : Nat} (h : call.anchor? tuning = some time) : call.time? = some time := by
  cases call with
  | sent now bytes number bytesInFlight => exact (Option.ite_none_right_eq_some.mp h).2
  | ackEvent now event draw => exact h
  | _ => cases h

/-- A count that was taken at an anchor: since then no more bytes were counted than were acknowledged. -/
def CountedFrom (tuning : BbrTuning) (size : Nat → Nat) (before : List Call) (total since base : Nat) : Prop :=
  ∃ pre earlier post, before = pre ++ earlier :: post ∧ earlier.anchor? tuning = some since ∧
    total ≤ base + acknowledged size post

theorem CountedFrom.extend {total total' since base : Nat} (h : CountedFrom tuning size before total since base)
    (call : Call) (hgrows : total' ≤ total + call.acknowledges size) :
    CountedFrom tuning size (before ++ [call]) total' since base := by
  obtain ⟨pre, earlier, post, rfl, hanchor, htotal⟩ := h
  refine ⟨pre, earlier, post ++ [call], by simp, hanchor, ?_⟩
  rw [acknowledged_append, ← Nat.add_assoc]
  refine Nat.le_trans hgrows (Nat.add_le_add htotal ?_)
  simp [acknowledged]

theorem countedFrom_of_mem {total since : Nat} (h : ∃ call ∈ before, call.anchor? tuning = some since) :
    CountedFrom tuning size before total since total := by
  obtain ⟨call, hmem, hanchor⟩ := h
  obtain ⟨pre, post, rfl⟩ := List.append_of_mem hmem
  exact ⟨pre, call, post, rfl, hanchor, Nat.le_add_right _ _⟩

theorem CountedFrom.rate_le {total since base now : Nat} {event : AckEvent} {draw : Fin 7} {after : List Call}
    (h : CountedFrom tuning size before total since base)
    (hcalls : Delivered tuning size rate rtt (before ++ .ackEvent now event draw :: after)) (hlt : since < now) :
    (total + sizes size event.ackedPackets - base) * 1000000000 ≤ rate * (now - since) := by
  obtain ⟨pre, earlier, post, rfl, hanchor, htotal⟩ := h
  refine Nat.le_trans (Nat.mul_le_mul_right _ ?_)
    (hcalls.rate_le pre earlier post now event draw after rfl since hanchor hlt)
  have hevent : acknowledged size [.ackEvent now event draw] = sizes size event.ackedPackets := by
    simp [acknowledged, acknowledges, sizes]
  rw [acknowledged_append, hevent]
  omega

structure SentFits (tuning : BbrTuning) (size : Nat → Nat) (before : List Call) (total number : Nat)
    (sent : ConnectionStateOnSentPacket) : Prop where
  size_le : sent.size ≤ size number
  origin : ∃ pre bytes bytesInFlight post, before = pre ++ .sent sent.sentTime bytes number bytesInFlight :: post
  counted : ∀ since ∈ sent.lastAckedPacketAckTime,
    CountedFrom tuning size before total since sent.sendTimeState.totalBytesAcked

structure SamplerFits (tuning : BbrTuning) (size : Nat → Nat) (before : List Call) (sampler : BandwidthSampler) : Prop where
  avoidance : sampler.overestimateAvoidance = false
  anchored : ∀ time ∈ sampler.lastAckedPacketAckTime, ∃ call ∈ before, call.anchor? tuning = some time
  sent : ∀ number sent, sampler.connectionStateMap.get number = some sent →
    SentFits tuning size before sampler.totalBytesAcked number sent
  legacy : ∀ since ∈ sampler.lastLegacyAckTime,
    CountedFrom tuning size before sampler.totalBytesAcked since sampler.lastLegacyTotalAcked

variable {sampler sampler' : BandwidthSampler}

theorem SamplerFits.marked (h : SamplerFits tuning size before sampler) (hmarked : Marked sampler sampler') :
    SamplerFits tuning size before sampler' := by
  rcases hmarked with rfl | rfl
  · exact h
  · exact ⟨h.avoidance, h.anchored, h.sent, h.legacy⟩

theorem SentFits.extend {total total' number : Nat} {sent : ConnectionStateOnSentPacket}
    (h : SentFits tuning size before total number sent) (call : Call)
    (hgrows : total' ≤ total + call.acknowledges size) :
    SentFits tuning size (before ++ [call]) total' number sent := by
  obtain ⟨pre, bytes, bytesInFlight, post, rfl⟩ := h.origin
  exact ⟨h.size_le, ⟨pre, bytes, bytesInFlight, post ++ [call], by simp⟩,
    fun since hsince => (h.counted since hsince).extend call hgrows⟩

theorem SamplerFits.extend (h : SamplerFits tuning size before sampler) (call : Call) :
    SamplerFits tuning size (before ++ [call]) sampler where
  avoidance := h.avoidance
  anchored time htime := by
    obtain ⟨earlier, hmem, hanchor⟩ := h.anchored time htime
    exact ⟨earlier, List.mem_append_left _ hmem, hanchor⟩
  sent number sent hget := (h.sent number sent hget).extend call (Nat.le_add_right _ _)
  legacy since hsince := (h.legacy since hsince).extend call (Nat.le_add_right _ _)

theorem leaveIdle_eq (havoidance : sampler.overestimateAvoidance = false) (sentTime : Nat) :
    sampler.leaveIdle sentTime =
      { sampler with
        lastAckedPacketAckTime := some sentTime
        totalBytesSentAtLastAckedPacket := sampler.totalBytesSent
        lastAckedPacketSentTime := some sentTime } := by
  unfold leaveIdle
  dsimp only
  rw [if_neg (by simp [havoidance])]

theorem SamplerFits.insert (h : SamplerFits tuning size before sampler) {number : Nat}
    {sent : ConnectionStateOnSentPacket} (hsent : SentFits tuning size before sampler.totalBytesAcked number sent) :
    SamplerFits tuning size before
      { sampler with connectionStateMap := sampler.connectionStateMap.insert number sent } := by
  refine ⟨h.avoidance, h.anchored, fun other sent' hget => ?_, h.legacy⟩
  rw [PartialMap.get_insert] at hget
  split at hget
  next hother =>
    cases hget
    exact hother ▸ hsent
  next => exact h.sent other sent' hget

theorem SamplerFits.onPacketSent (h : SamplerFits tuning size before sampler) {now bytes number bytesInFlight : Nat}
    (hsize : bytes ≤ size number) :
    SamplerFits tuning size (before ++ [.sent now bytes number bytesInFlight])
      (sampler.onPacketSent now number bytes (flightBeforeSend tuning bytes bytesInFlight) (bytes ≠ 0)) := by
  have hold := h.extend (.sent now bytes number bytesInFlight)
  unfold BandwidthSampler.onPacketSent
  dsimp only
  split
  · exact ⟨hold.avoidance, hold.anchored, hold.sent, hold.legacy⟩
  · have hanchored : SamplerFits tuning size (before ++ [.sent now bytes number bytesInFlight])
        (if flightBeforeSend tuning bytes bytesInFlight = 0 then
          leaveIdle { sampler with
            lastSentPacket := some number, totalBytesSent := saturatingAdd sampler.totalBytesSent bytes } now
        else { sampler with
          lastSentPacket := some number, totalBytesSent := saturatingAdd sampler.totalBytesSent bytes }) := by
      split
      next hidle =>
        rw [@leaveIdle_eq { sampler with
          lastSentPacket := some number, totalBytesSent := saturatingAdd sampler.totalBytesSent bytes } hold.avoidance]
        refine ⟨hold.avoidance, fun time htime => ?_, hold.sent, hold.legacy⟩
        cases htime
        exact ⟨.sent now bytes number bytesInFlight, by simp, if_pos hidle⟩
      next => exact ⟨hold.avoidance, hold.anchored, hold.sent, hold.legacy⟩
    exact hanchored.insert ⟨hsize, ⟨before, bytes, bytesInFlight, [], rfl⟩, fun since hsince =>
      countedFrom_of_mem (hanchored.anchored since hsince)⟩

theorem SentFits.measurable {total number now : Nat} {sent : ConnectionStateOnSentPacket} {event : AckEvent}
    {draw : Fin 7} {after : List Call} (h : SentFits tuning size before total number sent)
    (hcalls : Delivered tuning size rate rtt (before ++ .ackEvent now event draw :: after))
    {packet : AckedPacketInfo} (hpacket : packet ∈ event.ackedPackets) (hnumber : packet.packetNumber = number) :
    Measurable rate rtt now (total + sizes size event.ackedPackets) sent := by
  obtain ⟨pre, bytes, bytesInFlight, post, hbefore⟩ := h.origin
  have hmem : Call.sent sent.sentTime bytes number bytesInFlight ∈ before ++ .ackEvent now event draw :: after := by
    simp [hbefore]
  refine ⟨hcalls.timely _ hmem _ rfl, ?_, fun since hsince hlt => (h.counted since hsince).rate_le hcalls hlt⟩
  exact hcalls.rtt_le pre sent.sentTime bytes number bytesInFlight post now event draw after (by rw [hbefore]) packet
    hpacket hnumber

theorem SamplerFits.observed {now round : Nat} {event : AckEvent} {draw : Fin 7}
    (h : SamplerFits tuning size before sampler)
    (hobserved : Observed now (sizes size event.ackedPackets) round sampler sampler') :
    SamplerFits tuning size (before ++ [.ackEvent now event draw]) sampler' where
  avoidance := hobserved.avoidance.trans h.avoidance
  anchored time htime := by
    rcases hobserved.ackTime with hsame | hnow
    · exact (h.extend _).anchored time (hsame ▸ htime)
    · rw [hnow] at htime
      cases htime
      exact ⟨.ackEvent now event draw, by simp, rfl⟩
  sent number sent hget := (h.sent number sent (hobserved.states ▸ hget)).extend _ hobserved.total
  legacy since hsince := by
    rcases hobserved.legacy with ⟨htime, htotal⟩ | ⟨htime, htotal⟩
    · rw [htotal]
      exact (h.legacy since (htime ▸ hsince)).extend _ hobserved.total
    · rw [htime] at hsince
      cases hsince
      exact ⟨before, .ackEvent now event draw, [], rfl, rfl, by rw [htotal]; exact Nat.le_add_right _ _⟩

theorem SamplerFits.removeObsoletePackets (h : SamplerFits tuning size before sampler) (leastUnacked : Nat) :
    SamplerFits tuning size before (sampler.removeObsoletePackets leastUnacked) := by
  refine ⟨h.avoidance, h.anchored, fun number sent hget => ?_, h.legacy⟩
  have hget : (if number ≥ leastUnacked then sampler.connectionStateMap.get number else none) = some sent := hget
  split at hget
  · exact h.sent number sent hget
  · cases hget

/-- The samples of the filter are measurements within the rate, none newer than this round. -/
def Filtered (rate : Nat) (filter : MinMax) (round : Nat) : Prop :=
  ∃ history last, (MinMax.windowedMax filter.window).Ranked history last filter.samples ∧ last.time ≤ round ∧
    ∀ sample ∈ history, sample.value ≤ rate

theorem Filtered.get_le {filter : MinMax} {round : Nat} (h : Filtered rate filter round) : filter.get ≤ rate := by
  obtain ⟨history, last, hranked, -, hvalues⟩ := h
  exact hvalues _ hranked.first_leads.mem

theorem Filtered.mono {filter : MinMax} {round round' : Nat} (h : Filtered rate filter round) (hle : round ≤ round') :
    Filtered rate filter round' := by
  obtain ⟨history, last, hranked, hlast, hvalues⟩ := h
  exact ⟨history, last, hranked, Nat.le_trans hlast hle, hvalues⟩

theorem filtered_new (rate window round : Nat) : Filtered rate { window } round :=
  ⟨[] ++ [⟨0, 0⟩], ⟨0, 0⟩, WindowedMax.ranked_fill [] _, Nat.zero_le _, by simp⟩

theorem Filtered.updateMax {filter : MinMax} {round measurement : Nat} (h : Filtered rate filter round)
    (hmeasurement : measurement ≤ rate) (profile : Profile) :
    ∃ filter', filter.updateMax profile round measurement = .ok filter' ∧ Filtered rate filter' round := by
  obtain ⟨history, last, hranked, hlast, hvalues⟩ := h
  let sample : MinMaxSample := ⟨round, measurement⟩
  have hround : (MinMax.windowedMax filter.window).round last ≤ (MinMax.windowedMax filter.window).round sample := hlast
  have hupdated := hranked.update hround
  refine ⟨_, @MinMax.updateMax_ok profile filter sample history last hranked hlast, _, _, hupdated.toRanked,
    Nat.le_refl _, fun sample hsample => ?_⟩
  rcases List.mem_append.mp hsample with hsample | hsample
  · exact hvalues sample hsample
  · cases List.mem_singleton.mp hsample
    exact hmeasurement

theorem candidate_le {sample : CongestionEventSample} (h : EventWithin rate rtt sample)
    (strategy : MaxBwAppLimitedStrategy) (eventAppLimited samplerIsAppLimited : Bool) :
    (strategy.candidate sample eventAppLimited samplerIsAppLimited).1 ≤ rate := by
  unfold MaxBwAppLimitedStrategy.candidate
  split
  · exact h.bandwidth
  all_goals split
  · exact h.nonAppLimited
  all_goals exact h.bandwidth

theorem measurement_le {strategy : MaxBwUpdateStrategy} {currentBw sampleMaxBw bytesAcked measurement : Nat}
    {sampleIsAppLimited : Bool} (hcurrent : currentBw ≤ rate) (hsample : sampleMaxBw ≤ rate)
    (h : strategy.measurement currentBw sampleMaxBw sampleIsAppLimited bytesAcked = some measurement) :
    measurement ≤ rate := by
  unfold MaxBwUpdateStrategy.measurement at h
  split at h
  · cases h
  · split at h
    · cases h
      exact hsample
    · cases strategy with
      | default => cases h
      | refreshCurrentOnAppLimited =>
        obtain ⟨-, h⟩ := Option.ite_none_right_eq_some.mp h
        cases h
        exact hcurrent

end

section
variable {profile : Profile} {rounding : Rounding} {tuning : BbrTuning} {size : Nat → Nat} {rate rtt : Nat}
  {before : List Call} {bbr bbr' : Bbr}

structure Fits (tuning : BbrTuning) (size : Nat → Nat) (rate rtt : Nat) (before : List Call) (bbr : Bbr) : Prop where
  sampler : SamplerFits tuning size before bbr.sampler
  tracker : bbr.sampler.maxAckHeightTracker.maxAckHeightFilter.Settled bbr.roundCount
  filter : Filtered rate bbr.maxBandwidth bbr.roundCount
  minRtt : bbr.minRtt ≤ rtt
  round : bbr.roundCount ≤ u64Max

theorem Fits.within (h : Fits tuning size rate rtt before bbr) (hbdp : max rtt 100000000 / 1000 * rate < usizeSize)
    (hrtt : rtt < 2 ^ 64) : Within rate rtt bbr :=
  ⟨hbdp, hrtt, h.minRtt, h.filter.get_le⟩

theorem fits_new (rounding : Rounding) (config : BbrConfig) (currentMtu : UInt16) :
    Fits tuning size rate rtt [] (new rounding tuning config currentMtu) where
  sampler := ⟨rfl, nofun, nofun, nofun⟩
  tracker := ExtraAckedFilter.settled_fill defaultAckHeightWindow (Nat.two_pow_pos 64)
  filter := filtered_new rate tuning.bwWindowRounds 0
  minRtt := Nat.zero_le _
  round := Nat.zero_le _

theorem settled_marked {sampler sampler' : BandwidthSampler} {round : Nat}
    (h : sampler.maxAckHeightTracker.maxAckHeightFilter.Settled round) (hmarked : Marked sampler sampler') :
    sampler'.maxAckHeightTracker.maxAckHeightFilter.Settled round := by
  rcases hmarked with rfl | rfl
  · exact h
  · exact h

theorem Fits.opened (h : Fits tuning size rate rtt before bbr) {event : AckEvent} {isRoundStart : Bool}
    (hopened : bbr.openEvent profile rounding tuning event = .ok (bbr', isRoundStart)) :
    Fits tuning size rate rtt before bbr' := by
  obtain ⟨_, _, roundCount, _, _, _, _, rfl, hmarked, hround, -⟩ := openEvent_spec hopened
  have hle : bbr.roundCount ≤ roundCount ∧ roundCount ≤ u64Max := by
    have hmax := h.round
    rcases hround with rfl | rfl
    · exact ⟨Nat.le_refl _, hmax⟩
    · exact ⟨Nat.le_min.mpr ⟨Nat.le_succ _, hmax⟩, Nat.min_le_right _ _⟩
  exact ⟨h.sampler.marked hmarked, (settled_marked h.tracker hmarked).mono hle.1, h.filter.mono hle.1, h.minRtt, hle.2⟩

theorem Fits.takeSample {now : Nat} {event : AckEvent} {draw : Fin 7} {after : List Call}
    (h : Fits tuning size rate rtt before bbr) (hstrategy : tuning.sampler.sampleBandwidth = .min)
    (hrate : rate < infBandwidth)
    (hcalls : Delivered tuning size rate rtt (before ++ .ackEvent now event draw :: after)) (profile : Profile)
    (rounding : Rounding) : ∃ bbr' sample, bbr.takeSample profile rounding tuning now event = .ok (bbr', sample) ∧
      Fits tuning size rate rtt (before ++ [.ackEvent now event draw]) bbr' ∧
      ∀ sampleRtt ∈ sample.sampleRtt, sampleRtt ≤ rtt := by
  have hnow : now < 2 ^ 64 := hcalls.timely (.ackEvent now event draw) (by simp) now rfl
  have htime : ∀ time ∈ bbr.sampler.lastAckedPacketAckTime, time < 2 ^ 64 := by
    intro time htime
    obtain ⟨call, hmem, hanchor⟩ := h.sampler.anchored time htime
    exact hcalls.timely call (by simp [hmem]) time (time_of_anchor hanchor)
  obtain ⟨sampler, sample, hsample, hobserved, hwithin⟩ := @onCongestionEvent_ok profile rounding tuning.sampler bbr.sampler rate
    rtt size
    { ackTime := now
      ackedPackets := event.ackedPackets
      lostPackets := event.lostPackets
      maxBandwidth := bbr.bandwidthEstimate
      estBandwidthUpperBound := u64Max
      roundTripCount := bbr.roundCount
      eventAppLimited := event.appLimited } bbr.roundCount hstrategy hrate hnow h.sampler.avoidance h.tracker
    (Nat.le_refl _) htime
    (fun packet hpacket sent hget =>
      ⟨(h.sampler.sent _ sent hget).size_le, (h.sampler.sent _ sent hget).measurable hcalls hpacket rfl⟩)
    (fun since hsince hlt => (h.sampler.legacy since hsince).rate_le hcalls hlt)
  have hsampler : SamplerFits tuning size (before ++ [.ackEvent now event draw]) sampler := h.sampler.observed hobserved
  unfold Bbr.takeSample
  rw [hsample, ok_bind]
  dsimp only
  split
  next measurement hmeasurement =>
    have hle := measurement_le h.filter.get_le (candidate_le hwithin ..) hmeasurement
    obtain ⟨filter, hfilter, hfiltered⟩ := h.filter.updateMax hle profile
    rw [hfilter, ok_bind]
    exact ⟨_, _, rfl, ⟨hsampler, hobserved.tracker, hfiltered, h.minRtt, h.round⟩, hwithin.rtt⟩
  next => exact ⟨_, _, rfl, ⟨hsampler, hobserved.tracker, h.filter, h.minRtt, h.round⟩, hwithin.rtt⟩

theorem Fits.limited (h : Fits tuning size rate rtt before bbr) {sample : CongestionEventSample}
    (hlimited : bbr.setLimits profile rounding sample = .ok bbr') : Fits tuning size rate rtt before bbr' := by
  obtain ⟨_, _, _, rfl, -, -, -⟩ := setLimits_spec hlimited
  exact ⟨h.sampler, h.tracker, h.filter, h.minRtt, h.round⟩

theorem Fits.closed (h : Fits tuning size rate rtt before bbr) (event : AckEvent) (isRoundStart : Bool) :
    Fits tuning size rate rtt before (bbr.closeEvent event isRoundStart) := by
  unfold closeEvent
  dsimp only
  split
  · exact ⟨h.sampler.removeObsoletePackets _, h.tracker, h.filter, h.minRtt, h.round⟩
  · exact ⟨h.sampler, h.tracker, h.filter, h.minRtt, h.round⟩

theorem Fits.onAckEvent {now : Nat} {event : AckEvent} {draw : Fin 7} {after : List Call}
    (h : Fits tuning size rate rtt before bbr) (hstrategy : tuning.sampler.sampleBandwidth = .min)
    (hrate : rate < infBandwidth) (hbdp : max rtt 100000000 / 1000 * rate < usizeSize) (hrtt : rtt < 2 ^ 64)
    (hcalls : Delivered tuning size rate rtt (before ++ .ackEvent now event draw :: after)) (profile : Profile)
    (rounding : Rounding) :
    ∃ bbr', bbr.onAckEvent profile rounding tuning now event draw = .ok bbr' ∧
      Fits tuning size rate rtt (before ++ [.ackEvent now event draw]) bbr' := by
  obtain ⟨⟨opened, isRoundStart⟩, hopened⟩ := (h.within hbdp hrtt).openEvent_ok profile rounding tuning event
  obtain ⟨sampled, sample, hsampled, hfits, hsampleRtt⟩ := (h.opened hopened).takeSample hstrategy hrate hcalls profile
    rounding
  obtain ⟨moved, hmoved⟩ := (hfits.within hbdp hrtt).moveOn_ok hsampleRtt profile rounding tuning now event isRoundStart
    draw
  obtain ⟨hheld, hmarked, hmin, -, -, -⟩ := moveOn_spec hmoved
  have hminRtt : moved.minRtt ≤ rtt := hmin.elim (fun hsame => hsame ▸ hfits.minRtt) (hsampleRtt moved.minRtt)
  have hfilter : moved.maxBandwidth = sampled.maxBandwidth := congrArg Held.maxBandwidth hheld
  have hround : moved.roundCount = sampled.roundCount := congrArg Held.roundCount hheld
  have hmovedFits : Fits tuning size rate rtt (before ++ [.ackEvent now event draw]) moved := by
    refine ⟨hfits.sampler.marked hmarked, ?_, ?_, hminRtt, hround ▸ hfits.round⟩
    · rw [hround]
      exact settled_marked hfits.tracker hmarked
    · rw [hround, hfilter]
      exact hfits.filter
  obtain ⟨limited, hlimited⟩ := (hmovedFits.within hbdp hrtt).setLimits_ok profile rounding sample
  have hdone : bbr.onAckEvent profile rounding tuning now event draw = .ok (limited.closeEvent event isRoundStart) := by
    unfold Bbr.onAckEvent
    rw [hopened, ok_bind]
    dsimp only
    rw [hsampled, ok_bind]
    dsimp only
    rw [hmoved, ok_bind, hlimited, ok_bind]
    rfl
  exact ⟨_, hdone, (hmovedFits.limited hlimited).closed event isRoundStart⟩

theorem Fits.extend (h : Fits tuning size rate rtt before bbr) (call : Call) :
    Fits tuning size rate rtt (before ++ [call]) bbr :=
  ⟨h.sampler.extend call, h.tracker, h.filter, h.minRtt, h.round⟩

theorem settled_onPacketSent {sampler : BandwidthSampler} {round : Nat}
    (havoidance : sampler.overestimateAvoidance = false)
    (h : sampler.maxAckHeightTracker.maxAckHeightFilter.Settled round) (now number bytes flight : Nat)
    (isRetransmittable : Bool) :
    (sampler.onPacketSent now number bytes flight isRetransmittable).maxAckHeightTracker.maxAckHeightFilter.Settled
      round := by
  unfold BandwidthSampler.onPacketSent
  dsimp only
  split
  · exact h
  · split
    · rw [@leaveIdle_eq { sampler with
        lastSentPacket := some number, totalBytesSent := saturatingAdd sampler.totalBytesSent bytes } havoidance]
      exact h
    · exact h

theorem Fits.step {call : Call} {after : List Call} (h : Fits tuning size rate rtt before bbr)
    (hstrategy : tuning.sampler.sampleBandwidth = .min) (hrate : rate < infBandwidth)
    (hbdp : max rtt 100000000 / 1000 * rate < usizeSize) (hrtt : rtt < 2 ^ 64)
    (hcalls : Delivered tuning size rate rtt (before ++ call :: after)) (profile : Profile) (rounding : Rounding) :
    ∃ bbr', bbr.step profile rounding tuning call = .ok bbr' ∧ Fits tuning size rate rtt (before ++ [call]) bbr' := by
  have hold := h.extend call
  cases call with
  | sent now bytes number bytesInFlight =>
    have hsize : bytes ≤ size number := hcalls.sizes now bytes number bytesInFlight (by simp)
    exact ⟨_, rfl, h.sampler.onPacketSent hsize, settled_onPacketSent h.sampler.avoidance h.tracker .., h.filter, h.minRtt,
      h.round⟩
  | ackEvent now event draw => exact h.onAckEvent hstrategy hrate hbdp hrtt hcalls profile rounding
  | congestionEvent isPersistentCongestion lostBytes =>
    refine ⟨_, rfl, ?_⟩
    unfold Bbr.onCongestionEvent
    dsimp only
    split
    all_goals exact ⟨hold.sampler, h.tracker, h.filter, h.minRtt, h.round⟩
  | endAcks inFlight => exact ⟨_, rfl, hold.sampler, h.tracker, h.filter, h.minRtt, h.round⟩
  | mtuUpdate newMtu => exact ⟨_, rfl, hold.sampler, h.tracker, h.filter, h.minRtt, h.round⟩

theorem fits_of_delivered {calls : List Call} (hstrategy : tuning.sampler.sampleBandwidth = .min)
    (hrate : rate < infBandwidth) (hbdp : max rtt 100000000 / 1000 * rate < usizeSize) (hrtt : rtt < 2 ^ 64)
    (hcalls : Delivered tuning size rate rtt calls) (profile : Profile) (rounding : Rounding) (config : BbrConfig)
    (currentMtu : UInt16) :
    ∃ bbr, run profile rounding tuning config currentMtu calls = .ok bbr ∧ Fits tuning size rate rtt calls bbr :=
  foldlM_ok_of_history (I := Fits tuning size rate rtt) (l := calls)
    (fun _ _ _ _ hsplit hfits => hfits.step hstrategy hrate hbdp hrtt (hsplit ▸ hcalls) profile rounding)
    (fits_new rounding config currentMtu)

/-- Where acknowledgements arrive no faster than a rate whose bandwidth-delay product fits 64 bits, the controller
goes through every run without a panic, in a build with overflow checks and in one without, and its estimate never
exceeds the rate. -/
theorem run_of_delivered {config : BbrConfig} {currentMtu : UInt16} {calls : List Call}
    (hstrategy : tuning.sampler.sampleBandwidth = .min) (hrate : rate < infBandwidth)
    (hbdp : max rtt 100000000 / 1000 * rate < usizeSize) (hrtt : rtt < 2 ^ 64)
    (hcalls : Delivered tuning size rate rtt calls) (profile : Profile) (rounding : Rounding) :
    ∃ bbr, run profile rounding tuning config currentMtu calls = .ok bbr ∧ bbr.bandwidthEstimate ≤ rate := by
  obtain ⟨bbr, hrun, hfits⟩ := fits_of_delivered hstrategy hrate hbdp hrtt hcalls profile rounding config currentMtu
  exact ⟨bbr, hrun, hfits.filter.get_le⟩

def sampleSent : List Call :=
  [.sent 0 1200 1 1200, .ackEvent 100000000 ⟨38400, [⟨1, 1200⟩], [], false⟩ sampleDraw, .sent 100000000 1200 2 2400]

theorem run_of_delivered_sample : ∃ bbr, run ⟨true⟩ {} {} {} 1200 sampleSent = .ok bbr ∧
    bbr.bandwidthEstimate ≤ 12000 :=
  have hdelivered : Delivered {} (fun _ => 1200) 12000 100000000 sampleSent := delivered_of_check (by decide +kernel)
  run_of_delivered rfl (by decide) (by decide) (by decide) hdelivered ⟨true⟩ {}

theorem pacingGainCycle_le : ∀ offset : Fin 8, pacingGainCycle offset ≤ 5 / 4 := by decide +kernel

theorem ModeInv.pacingGain_le (h : ModeInv rounding bbr) (hdrain : defaultDrainGain rounding ≤ 1)
    (hfull : bbr.isAtFullBandwidth) : bbr.pacingGain ≤ 5 / 4 := by
  cases hmode : bbr.mode with
  | startup => exact absurd hfull (h.full hmode)
  | drain =>
    have hgain : bbr.pacingGain = bbr.drainGain := (h.sound.drain hmode).2
    rw [hgain, h.drainGain]
    exact le_trans hdrain (by norm_num)
  | probeBw =>
    rcases (h.sound.probeBw hmode).2 with hgain | ⟨hgain, -⟩
    · exact le_of_eq_of_le hgain (pacingGainCycle_le _)
    · exact le_of_eq_of_le hgain (by norm_num)
  | probeRtt => exact le_of_eq_of_le (h.sound.probeRtt hmode) (by norm_num)

/-- Once the full bandwidth is found, every acknowledgement leaves a pacing rate of at most five quarters of the rate
that acknowledgements arrive at. -/
theorem pacing_le_of_delivered {config : BbrConfig} {currentMtu : UInt16} {calls : List Call} {now : Nat}
    {event : AckEvent} {draw : Fin 7} (hstrategy : tuning.sampler.sampleBandwidth = .min) (hrate : rate < infBandwidth)
    (hbdp : max rtt 100000000 / 1000 * rate < usizeSize) (hrtt : rtt < 2 ^ 64)
    (hcalls : Delivered tuning size rate rtt (calls ++ [.ackEvent now event draw])) (hrounding : rounding.Ordered)
    (hdrain : defaultDrainGain rounding ≤ 1)
    (hrun : run profile rounding tuning config currentMtu (calls ++ [.ackEvent now event draw]) = .ok bbr)
    (hfull : bbr.isAtFullBandwidth) (hbw : bbr.bandwidthEstimate ≠ 0) :
    bbr.pacingRate ≤ truncU64 (rounding.double (rounding.double rate * (5 / 4))) := by
  obtain ⟨_, hrun', hfits⟩ := fits_of_delivered hstrategy hrate hbdp hrtt hcalls profile rounding config currentMtu
  cases Except.ok.inj (hrun.symm.trans hrun')
  have hestimate : (bbr.bandwidthEstimate : Rat) ≤ rate := Nat.cast_le.mpr hfits.filter.get_le
  have hgain := (modeInv_of_run hrun).pacingGain_le hdrain hfull
  obtain ⟨last, -, hlast⟩ := bind_eq_ok.mp (List.foldlM_append.symm.trans hrun)
  obtain ⟨_, hack, hlast⟩ := bind_eq_ok.mp hlast
  cases hlast
  rw [(onAckEvent_spec hack).pacing hbw hfull]
  have hpos := hrounding.double_nonneg (Nat.cast_nonneg bbr.bandwidthEstimate)
  refine truncU64_mono (hrounding.mono ?_)
  calc rounding.double bbr.bandwidthEstimate * bbr.pacingGain
      ≤ rounding.double bbr.bandwidthEstimate * (5 / 4) := mul_le_mul_of_nonneg_left hgain hpos
    _ ≤ rounding.double rate * (5 / 4) := mul_le_mul_of_nonneg_right (hrounding.mono hestimate) (by norm_num)

theorem pacing_le_of_delivered_sample :
    ∃ bbr, run ⟨true⟩ {} {} { startupRoundsWithoutGrowthBeforeExit := 1 } 1200
        (sampleSent ++ [.ackEvent 200000000 ⟨38400, [⟨2, 1200⟩], [], false⟩ sampleDraw]) = .ok bbr ∧
      bbr.isAtFullBandwidth ∧ bbr.pacingRate ≤ truncU64 (12000 * (5 / 4)) := by
  have hdelivered : Delivered {} (fun _ => 1200) 12000 100000000
      (sampleSent ++ [.ackEvent 200000000 ⟨38400, [⟨2, 1200⟩], [], false⟩ sampleDraw]) :=
    delivered_of_check (by decide +kernel)
  have hstate : (run ⟨true⟩ {} {} { startupRoundsWithoutGrowthBeforeExit := 1 } 1200
      (sampleSent ++ [.ackEvent 200000000 ⟨38400, [⟨2, 1200⟩], [], false⟩ sampleDraw])).toOption.map
        (fun bbr => (bbr.isAtFullBandwidth, bbr.bandwidthEstimate)) = some (true, 12000) := by decide +kernel
  obtain ⟨bbr, hrun, hstate⟩ := ok_of_toOption hstate
  have hfull : bbr.isAtFullBandwidth := congrArg Prod.fst hstate
  have hbw : bbr.bandwidthEstimate = 12000 := congrArg Prod.snd hstate
  have hpacing := pacing_le_of_delivered rfl (by decide) (by decide) (by decide) hdelivered Rounding.ordered_exact
    (by decide +kernel) hrun hfull (by simp [hbw])
  exact ⟨bbr, hrun, hfull, hpacing⟩

end

end Bbr

end Hysteria.Quinn
