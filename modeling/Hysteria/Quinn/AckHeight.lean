import Hysteria.Quinn.ExtraAcked
import Hysteria.Quinn.PacerDelay

/-! The epochs of aggregated acknowledgements whose extra bytes the filter is given, `MaxAckHeightTracker`
of `bbr/bw_estimation.rs`. Times are in nanoseconds. -/
namespace Hysteria.Quinn
open Lib

/-- How the results of `f32` and `f64` operations are rounded. -/
structure Rounding where
  single : Rat → Rat := id
  double : Rat → Rat := id

/-- What is used of the rounding of `f64` where a result depends on it. -/
structure Rounding.Ordered (rounding : Rounding) : Prop where
  mono : Monotone rounding.double
  zero : 0 ≤ rounding.double 0

theorem Rounding.Ordered.double_nonneg {rounding : Rounding} (h : rounding.Ordered) {a : Rat} (ha : 0 ≤ a) :
    0 ≤ rounding.double a := le_trans h.zero (h.mono ha)

theorem Rounding.ordered_exact : Rounding.Ordered {} := ⟨monotone_id, le_refl _⟩

def ExtraAckedFilter.clear (filter : ExtraAckedFilter) : ExtraAckedFilter := { filter with estimates := .fill {} }

def bytesFromBandwidthAndTimeDelta (profile : Profile) (bandwidth : UInt64) (delta : Nat) : Exec Empty Nat := do
  let product ← mulU128 profile bandwidth.toNat delta
  return min (product / 1000000000) u64Max

structure AckEvent where
  bandwidthEstimate : UInt64
  isNewMaxBandwidth : Bool
  roundTripCount : Nat
  lastSentPacketNumber : Option Nat
  lastAckedPacketNumber : Option Nat
  ackTime : Nat
  bytesAcked : Nat
deriving DecidableEq, Repr

structure MaxAckHeightTracker where
  maxAckHeightFilter : ExtraAckedFilter := {}
  aggregationEpochStartTime : Option Nat := none
  aggregationEpochBytes : Nat := 0
  lastSentPacketNumberBeforeEpoch : Option Nat := none
  numAckAggregationEpochs : Nat := 0
  ackAggregationBandwidthThreshold : Rat := 1
  startNewAggregationEpochAfterFullRound : Bool := false
  reduceExtraAckedOnBandwidthIncrease : Bool := false

namespace MaxAckHeightTracker

def get (tracker : MaxAckHeightTracker) : Nat := tracker.maxAckHeightFilter.getBest.extraAcked

def refeed (profile : Profile) (bandwidth : UInt64) (filter : ExtraAckedFilter) (event : ExtraAckedEvent) :
    Exec Empty ExtraAckedFilter := do
  let expected ← bytesFromBandwidthAndTimeDelta profile bandwidth event.timeDelta
  if expected < event.bytesAcked then
    return filter.update { event with extraAcked := event.bytesAcked - expected } event.round
  else return filter

/-- The first part of `update`: the estimates are measured again by a higher bandwidth. -/
def remeasure (profile : Profile) (tracker : MaxAckHeightTracker) (event : AckEvent) :
    Exec Empty MaxAckHeightTracker :=
  if tracker.reduceExtraAckedOnBandwidthIncrease && event.isNewMaxBandwidth then do
    let filter := tracker.maxAckHeightFilter
    let maxAckHeightFilter ← [filter.getBest, filter.getSecondBest, filter.getThirdBest].foldlM
      (refeed profile event.bandwidthEstimate) filter.clear
    return { tracker with maxAckHeightFilter }
  else .ok tracker

def forceNewEpoch (tracker : MaxAckHeightTracker) (lastAckedPacketNumber : Option Nat) : Bool :=
  match tracker.lastSentPacketNumberBeforeEpoch, lastAckedPacketNumber with
  | some before, some acked => tracker.startNewAggregationEpochAfterFullRound && acked > before
  | _, _ => false

def startEpoch (tracker : MaxAckHeightTracker) (event : AckEvent) : MaxAckHeightTracker :=
  { tracker with
    aggregationEpochBytes := event.bytesAcked
    aggregationEpochStartTime := some event.ackTime
    lastSentPacketNumberBeforeEpoch := event.lastSentPacketNumber
    numAckAggregationEpochs := saturatingAdd tracker.numAckAggregationEpochs 1 }

/-- The rest of `update`, in an epoch that goes on unless too little was acknowledged in it. -/
def measure (profile : Profile) (rounding : Rounding) (tracker : MaxAckHeightTracker) (event : AckEvent)
    (startTime : Nat) : Exec Empty (MaxAckHeightTracker × Nat) := do
  let aggregationDelta := event.ackTime - startTime
  let expectedBytesAcked ← bytesFromBandwidthAndTimeDelta profile event.bandwidthEstimate aggregationDelta
  if rounding.double tracker.aggregationEpochBytes ≤
      rounding.double (tracker.ackAggregationBandwidthThreshold * rounding.double expectedBytesAcked) then
    return (tracker.startEpoch event, 0)
  else
    let aggregationEpochBytes := saturatingAdd tracker.aggregationEpochBytes event.bytesAcked
    let extraAcked := aggregationEpochBytes - expectedBytesAcked
    let sample : ExtraAckedEvent :=
      { extraAcked, bytesAcked := aggregationEpochBytes, timeDelta := aggregationDelta, round := event.roundTripCount }
    return ({ tracker with
      aggregationEpochBytes
      maxAckHeightFilter := tracker.maxAckHeightFilter.update sample event.roundTripCount }, extraAcked)

def update (profile : Profile) (rounding : Rounding) (tracker : MaxAckHeightTracker) (event : AckEvent) :
    Exec Empty (MaxAckHeightTracker × Nat) := do
  let tracker ← tracker.remeasure profile event
  match tracker.aggregationEpochStartTime with
  | none => return (tracker.startEpoch event, 0)
  | some startTime =>
    if tracker.forceNewEpoch event.lastAckedPacketNumber then return (tracker.startEpoch event, 0)
    else tracker.measure profile rounding event startTime

def reset (tracker : MaxAckHeightTracker) (newHeight roundTripCount : Nat) : MaxAckHeightTracker :=
  { tracker with
    maxAckHeightFilter := tracker.maxAckHeightFilter.reset
      { extraAcked := newHeight, bytesAcked := 0, timeDelta := 0, round := roundTripCount } roundTripCount }

end MaxAckHeightTracker

inductive TrackerCall where
  | update (event : AckEvent)
  | reset (newHeight roundTripCount : Nat)
  | setAckAggregationBandwidthThreshold (threshold : Rat)
  | setStartNewAggregationEpochAfterFullRound (value : Bool)
  | setReduceExtraAckedOnBandwidthIncrease (value : Bool)

namespace TrackerCall

def round? : TrackerCall → Option Nat
  | update event => some event.roundTripCount
  | reset _ roundTripCount => some roundTripCount
  | _ => none

def Timely : TrackerCall → Prop
  | update event => event.ackTime < 2 ^ 64
  | _ => True

def step (profile : Profile) (rounding : Rounding) (tracker : MaxAckHeightTracker) :
    TrackerCall → Exec Empty MaxAckHeightTracker
  | update event => (tracker.update profile rounding event).map Prod.fst
  | reset newHeight roundTripCount => .ok (tracker.reset newHeight roundTripCount)
  | setAckAggregationBandwidthThreshold threshold =>
    .ok { tracker with ackAggregationBandwidthThreshold := threshold }
  | setStartNewAggregationEpochAfterFullRound value =>
    .ok { tracker with startNewAggregationEpochAfterFullRound := value }
  | setReduceExtraAckedOnBandwidthIncrease value =>
    .ok { tracker with reduceExtraAckedOnBandwidthIncrease := value }

end TrackerCall

namespace ExtraAckedFilter

def Settled (filter : ExtraAckedFilter) (now : Nat) : Prop :=
  ∃ history last, (windowedMax filter.windowLength).Ranked history last filter.estimates ∧ last.round ≤ now ∧
    ∀ event ∈ history, event.timeDelta < 2 ^ 64

variable {filter : ExtraAckedFilter} {now : Nat}

theorem Settled.mono {later : Nat} (h : filter.Settled now) (hle : now ≤ later) : filter.Settled later := by
  obtain ⟨history, last, hranked, hlast, htimes⟩ := h
  exact ⟨history, last, hranked, Nat.le_trans hlast hle, htimes⟩

theorem settled_fill (windowLength : Nat) {sample : ExtraAckedEvent} (htime : sample.timeDelta < 2 ^ 64) :
    Settled ⟨windowLength, .fill sample⟩ sample.round :=
  ⟨[] ++ [sample], sample, WindowedMax.ranked_fill [] sample, Nat.le_refl _, by simpa using htime⟩

theorem Settled.tracks (h : filter.Settled now) (sample : ExtraAckedEvent) {round : Nat} (hround : now ≤ round) :
    ∃ history, (∀ event ∈ history, event.timeDelta < 2 ^ 64) ∧
      (windowedMax filter.windowLength).Tracks (history ++ [{ sample with round }]) { sample with round }
        (filter.update sample round).estimates := by
  obtain ⟨history, last, hranked, hlast, htimes⟩ := h
  rw [update_eq]
  exact ⟨history, htimes, hranked.update (Nat.le_trans hlast hround)⟩

theorem Settled.update (h : filter.Settled now) {sample : ExtraAckedEvent} {round : Nat} (hround : now ≤ round)
    (htime : sample.timeDelta < 2 ^ 64) : (filter.update sample round).Settled round := by
  obtain ⟨history, htimes, htracks⟩ := h.tracks sample hround
  refine ⟨_, _, (windowLength_update ..).symm ▸ htracks.toRanked, Nat.le_refl _, ?_⟩
  intro event hevent
  rcases List.mem_append.mp hevent with hevent | hevent
  · exact htimes event hevent
  · rw [List.mem_singleton.mp hevent]
    exact htime

theorem Settled.le_getBest (h : filter.Settled now) (sample : ExtraAckedEvent) {round : Nat} (hround : now ≤ round) :
    sample.extraAcked ≤ (filter.update sample round).getBest.extraAcked := by
  obtain ⟨history, -, htracks⟩ := h.tracks sample hround
  exact htracks.first_sample.value_le

end ExtraAckedFilter

theorem bytesFromBandwidthAndTimeDelta_ok (profile : Profile) (bandwidth : UInt64) {delta : Nat}
    (h : delta < 2 ^ 64) :
    bytesFromBandwidthAndTimeDelta profile bandwidth delta = .ok (min (bandwidth.toNat * delta / 1000000000) u64Max) := by
  rw [bytesFromBandwidthAndTimeDelta, mulU128_ok profile bandwidth.toNat_lt h]
  rfl

namespace MaxAckHeightTracker
variable {filter : ExtraAckedFilter} {now : Nat} (profile : Profile) (rounding : Rounding)

theorem refeed_ok (bandwidth : UInt64) (h : filter.Settled now) {event : ExtraAckedEvent}
    (hround : now ≤ event.round) (htime : event.timeDelta < 2 ^ 64) :
    ∃ next, refeed profile bandwidth filter event = .ok next ∧ next.Settled event.round := by
  rw [refeed, bytesFromBandwidthAndTimeDelta_ok profile bandwidth htime, ok_bind]
  split
  case isTrue => exact ⟨_, rfl, h.update hround htime⟩
  case isFalse => exact ⟨_, rfl, h.mono hround⟩

theorem remeasure_ok {tracker : MaxAckHeightTracker} (event : AckEvent)
    (h : tracker.maxAckHeightFilter.Settled now) :
    ∃ next, tracker.remeasure profile event = .ok next ∧ next.maxAckHeightFilter.Settled now := by
  rw [remeasure]
  split
  case isFalse => exact ⟨tracker, rfl, h⟩
  case isTrue =>
    obtain ⟨history, last, hranked, hlast, htimes⟩ := h
    have hclear : tracker.maxAckHeightFilter.clear.Settled 0 := ExtraAckedFilter.settled_fill _ (Nat.two_pow_pos 64)
    obtain ⟨first, hfirst, h⟩ := refeed_ok profile event.bandwidthEstimate hclear (Nat.zero_le _)
      (htimes _ hranked.first_leads.mem)
    obtain ⟨second, hsecond, h⟩ := refeed_ok profile event.bandwidthEstimate h hranked.first_second.round_le
      (htimes _ hranked.second_leads.mem)
    obtain ⟨third, hthird, h⟩ := refeed_ok profile event.bandwidthEstimate h hranked.second_third.round_le
      (htimes _ hranked.third_leads.mem)
    refine ⟨{ tracker with maxAckHeightFilter := third }, ?_,
      h.mono (Nat.le_trans hranked.third_sample.round_le hlast)⟩
    simp only [List.foldlM_cons, List.foldlM_nil, ExtraAckedFilter.getBest, ExtraAckedFilter.getSecondBest,
      ExtraAckedFilter.getThirdBest, hfirst, hsecond, hthird, ok_bind]
    rfl

theorem measure_ok {tracker : MaxAckHeightTracker} {event : AckEvent} (startTime : Nat)
    (h : tracker.maxAckHeightFilter.Settled now) (hround : now ≤ event.roundTripCount) (htime : event.ackTime < 2 ^ 64) :
    ∃ next extraAcked, tracker.measure profile rounding event startTime = .ok (next, extraAcked) ∧
      next.maxAckHeightFilter.Settled event.roundTripCount ∧ extraAcked ≤ next.get := by
  have hdelta : event.ackTime - startTime < 2 ^ 64 := Nat.lt_of_le_of_lt (Nat.sub_le _ _) htime
  rw [measure, bytesFromBandwidthAndTimeDelta_ok profile event.bandwidthEstimate hdelta, ok_bind]
  split
  case isTrue => exact ⟨_, _, rfl, h.mono hround, Nat.zero_le _⟩
  case isFalse =>
    refine ⟨_, _, rfl, h.update hround hdelta, ?_⟩
    exact h.le_getBest ⟨_, _, _, _⟩ hround

theorem update_ok {tracker : MaxAckHeightTracker} {event : AckEvent} (h : tracker.maxAckHeightFilter.Settled now)
    (hround : now ≤ event.roundTripCount) (htime : event.ackTime < 2 ^ 64) :
    ∃ next extraAcked, tracker.update profile rounding event = .ok (next, extraAcked) ∧
      next.maxAckHeightFilter.Settled event.roundTripCount ∧ extraAcked ≤ next.get := by
  obtain ⟨measured, hmeasured, h⟩ := remeasure_ok profile event h
  rw [update, hmeasured, ok_bind]
  cases measured.aggregationEpochStartTime with
  | none => exact ⟨_, _, rfl, h.mono hround, Nat.zero_le _⟩
  | some startTime =>
    dsimp only
    split
    case isTrue => exact ⟨_, _, rfl, h.mono hround, Nat.zero_le _⟩
    case isFalse => exact measure_ok profile rounding startTime h hround htime

end MaxAckHeightTracker

namespace TrackerCall
variable (profile : Profile) (rounding : Rounding) {tracker : MaxAckHeightTracker} {now : Nat}

theorem step_ok (h : tracker.maxAckHeightFilter.Settled now) {call : TrackerCall}
    (hround : ∀ round ∈ call.round?, now ≤ round) (htimely : call.Timely) :
    ∃ next, call.step profile rounding tracker = .ok next ∧ next.maxAckHeightFilter.Settled (call.round?.getD now) := by
  cases call with
  | update event =>
    obtain ⟨next, extraAcked, hnext, hsettled, -⟩ := tracker.update_ok profile rounding h (hround _ rfl) htimely
    exact ⟨next, congrArg (Except.map Prod.fst) hnext, hsettled⟩
  | reset newHeight roundTripCount => exact ⟨_, rfl, ExtraAckedFilter.settled_fill _ (Nat.two_pow_pos 64)⟩
  | setAckAggregationBandwidthThreshold threshold => exact ⟨_, rfl, h⟩
  | setStartNewAggregationEpochAfterFullRound value => exact ⟨_, rfl, h⟩
  | setReduceExtraAckedOnBandwidthIncrease value => exact ⟨_, rfl, h⟩

theorem run_ok (h : tracker.maxAckHeightFilter.Settled now) {calls : List TrackerCall}
    (hrounds : (now :: calls.filterMap round?).Pairwise (· ≤ ·)) (htimely : ∀ call ∈ calls, call.Timely) :
    ∃ next, calls.foldlM (step profile rounding) tracker = .ok next ∧
      next.maxAckHeightFilter.Settled ((calls.filterMap round?).getLastD now) := by
  induction calls generalizing tracker now with
  | nil => exact ⟨tracker, rfl, h⟩
  | cons call calls ih =>
    rw [List.forall_mem_cons] at htimely
    rw [List.foldlM_cons]
    cases hcall : call.round? with
    | none =>
      rw [List.filterMap_cons_none hcall] at hrounds ⊢
      obtain ⟨next, hnext, hsettled⟩ := step_ok profile rounding h (by simp [hcall]) htimely.1
      rw [hnext, ok_bind]
      exact ih (by simpa [hcall] using hsettled) hrounds htimely.2
    | some round =>
      rw [List.filterMap_cons_some hcall] at hrounds ⊢
      obtain ⟨hnow, hrest⟩ := List.pairwise_cons.mp hrounds
      obtain ⟨next, hnext, hsettled⟩ := step_ok profile rounding h (by simp [hcall, hnow round]) htimely.1
      rw [hnext, ok_bind, List.getLastD_cons]
      exact ih (by simpa [hcall] using hsettled) hrest htimely.2

/-- Whatever a new tracker is called with, in the order of the rounds, it does not panic, and its estimates stand
in order and are no newer than the last round. -/
theorem run_ordered {calls : List TrackerCall} (hrounds : (calls.filterMap round?).Pairwise (· ≤ ·))
    (htimely : ∀ call ∈ calls, call.Timely) :
    ∃ tracker, calls.foldlM (step profile rounding) {} = .ok tracker ∧
      tracker.maxAckHeightFilter.getSecondBest.extraAcked ≤ tracker.get ∧
      tracker.maxAckHeightFilter.getThirdBest.extraAcked ≤ tracker.maxAckHeightFilter.getSecondBest.extraAcked ∧
      tracker.maxAckHeightFilter.getBest.round ≤ tracker.maxAckHeightFilter.getSecondBest.round ∧
      tracker.maxAckHeightFilter.getSecondBest.round ≤ tracker.maxAckHeightFilter.getThirdBest.round ∧
      tracker.maxAckHeightFilter.getThirdBest.round ≤ (calls.filterMap round?).getLastD 0 := by
  have hnew : ({} : MaxAckHeightTracker).maxAckHeightFilter.Settled 0 :=
    ExtraAckedFilter.settled_fill defaultAckHeightWindow (Nat.two_pow_pos 64)
  obtain ⟨tracker, hrun, history, last, h, hlast, -⟩ :=
    run_ok profile rounding hnew (List.pairwise_cons.mpr ⟨fun _ _ => Nat.zero_le _, hrounds⟩) htimely
  exact ⟨tracker, hrun, h.first_second.value_le, h.second_third.value_le, h.first_second.round_le,
    h.second_third.round_le, Nat.le_trans h.third_sample.round_le hlast⟩

end TrackerCall

end Hysteria.Quinn
