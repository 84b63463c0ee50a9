import Hysteria.Lib.Exec
import Hysteria.Quinn.Pacer
import Mathlib.Algebra.Order.Floor.Div

/-! When the rate token bucket of `pacing.rs` says that the next packet may be sent. The tuning is
what the environment gives, and its defaults are those of the bucket before. -/
namespace Hysteria.Quinn
open Lib

structure PacingTuning where
  useRateBasedPacing : Bool
  rateBurstIntervalNanos : Nat
  minRateBasedDelayNanos : UInt64
  rateBasedMinBurstPackets : UInt64
deriving DecidableEq, Repr

def PacingTuning.default : PacingTuning :=
  ⟨true, rateBasedBurstIntervalNanos, .ofNat Quinn.minRateBasedDelayNanos, .ofNat Quinn.rateBasedMinBurstPackets⟩

def mulU128 (profile : Profile) (a b : Nat) : Exec Empty Nat :=
  if a * b < 2 ^ 128 then .ok (a * b) else overflow profile (a * b % 2 ^ 128)

theorem mul_lt_u128 {a b : Nat} (ha : a < 2 ^ 64) (hb : b < 2 ^ 64) : a * b < 2 ^ 128 :=
  (Nat.mul_lt_mul'' ha hb).trans_eq (by decide)

theorem mulU128_ok (profile : Profile) {a b : Nat} (ha : a < 2 ^ 64) (hb : b < 2 ^ 64) :
    mulU128 profile a b = .ok (a * b) := if_pos (mul_lt_u128 ha hb)

namespace RateBucket

def tunedMaxBurstSize (profile : Profile) (tuning : PacingTuning) (bucket : RateBucket) : Exec Empty Nat :=
  if bucket.bytesPerSec = 0 then .ok (min (bucket.maxDatagramSize * rateBasedMinBurstPackets) u64Max)
  else do
    let product ← mulU128 profile bucket.bytesPerSec tuning.rateBurstIntervalNanos
    let rateBurst := divCeil product 1000000000 % 2 ^ 64
    let least ← mulUsize profile tuning.rateBasedMinBurstPackets.toNat bucket.maxDatagramSize
    return max rateBurst least

def budgetWithin (maxBurstSize : Nat) (bucket : RateBucket) (earned : Nat) : Nat :=
  min maxBurstSize (saturatingAdd bucket.budgetAtLastSent (min earned u64Max))

def tunedBudget (profile : Profile) (tuning : PacingTuning) (bucket : RateBucket) (now : Nat) : Exec Empty Nat := do
  let maxBurstSize ← bucket.tunedMaxBurstSize profile tuning
  match bucket.lastSentTime with
  | none => return maxBurstSize
  | some lastSentTime =>
    let product ← mulU128 profile bucket.bytesPerSec (now - lastSentTime)
    return bucket.budgetWithin maxBurstSize (product / 1000000000)

def tunedConfigure (profile : Profile) (tuning : PacingTuning) (bucket : RateBucket) (mtu rateBps : Nat)
    (resetBudget : Bool) : Exec Empty RateBucket := do
  let configured := { bucket with maxDatagramSize := mtu, bytesPerSec := divCeil rateBps 8 }
  let maxBurstSize ← configured.tunedMaxBurstSize profile tuning
  if resetBudget || bucket.lastSentTime.isNone then
    return { configured with budgetAtLastSent := maxBurstSize, lastSentTime := none }
  else return { configured with budgetAtLastSent := min bucket.budgetAtLastSent maxBurstSize }

def tunedOnTransmit (profile : Profile) (tuning : PacingTuning) (bucket : RateBucket) (now packetLength : Nat) :
    Exec Empty RateBucket := do
  let budget ← bucket.tunedBudget profile tuning now
  return { bucket with budgetAtLastSent := budget - packetLength, lastSentTime := some now }

end RateBucket

namespace Pacer

def tunedOnTransmit (profile : Profile) (tuning : PacingTuning) (pacer : Pacer) (now packetLength : Nat) :
    Exec Empty Pacer := do
  if pacer.lastBehavior = .rateTokenBucket ∧ 0 < pacer.rateBucket.bytesPerSec then
    let rateBucket ← pacer.rateBucket.tunedOnTransmit profile tuning now packetLength
    return { pacer with rateBucket }
  else return { pacer with tokens := pacer.tokens - packetLength }

def tunedReconfigured (profile : Profile) (tuning : PacingTuning) (pacer : Pacer) (mtu rateBps : Nat) :
    Exec Empty Pacer := do
  if pacer.lastBehavior ≠ .rateTokenBucket ∨ pacer.lastMtu ≠ mtu ∨
      pacer.rateBucket.bytesPerSec ≠ divCeil rateBps 8 then
    let rateBucket ← pacer.rateBucket.tunedConfigure profile tuning mtu rateBps
      (pacer.lastBehavior ≠ .rateTokenBucket)
    return { pacer with rateBucket, lastMtu := mtu, lastBehavior := .rateTokenBucket }
  else return { pacer with lastBehavior := .rateTokenBucket }

def waitNanos (bytesPerSec deficit : Nat) : Nat := divCeil (deficit * 1000000000) bytesPerSec

def tunedDelay (profile : Profile) (tuning : PacingTuning) (pacer : Pacer) (mtu : Nat) (pacingRateBps : Option Nat)
    (now : Nat) : Exec Empty (Pacer × Option Nat) :=
  match (pacingRateBps.filter (0 < ·)).filter fun _ => tuning.useRateBasedPacing with
  | none => .ok (pacer, none)
  | some rateBps => do
    let pacer ← pacer.tunedReconfigured profile tuning mtu rateBps
    let bytesNeeded := mtu
    let budget ← pacer.rateBucket.tunedBudget profile tuning now
    if budget ≥ bytesNeeded then return (pacer, none)
    else if pacer.rateBucket.bytesPerSec = 0 then return (pacer, none)
    else
      let deficit := bytesNeeded - budget
      let delayNanos := waitNanos pacer.rateBucket.bytesPerSec deficit
      let delayNanos := max delayNanos tuning.minRateBasedDelayNanos.toNat
      let delayNanos := min delayNanos u64Max
      return (pacer, some (pacer.rateBucket.lastSentTime.getD now + delayNanos))

end Pacer

theorem Pacer.divCeil_lt {rateBps : Nat} (hrate : rateBps < 2 ^ 64) : divCeil rateBps 8 < 2 ^ 64 := by
  unfold divCeil
  omega

section
variable {profile : Profile}

structure RateBucket.Fits (bucket : RateBucket) : Prop where
  datagram : bucket.maxDatagramSize < 2 ^ 16
  bytesPerSec : bucket.bytesPerSec < 2 ^ 64

theorem RateBucket.tunedMaxBurstSize_default {bucket : RateBucket} (h : bucket.Fits) :
    bucket.tunedMaxBurstSize profile .default = .ok bucket.maxBurstSize := by
  have hdatagram := h.datagram
  have hbytes := h.bytesPerSec
  have hproduct : mulU128 profile bucket.bytesPerSec PacingTuning.default.rateBurstIntervalNanos =
      .ok (bucket.bytesPerSec * rateBasedBurstIntervalNanos) := by
    apply if_pos
    change bucket.bytesPerSec * 4000000 < 2 ^ 128
    omega
  have hleast : (mulUsize profile PacingTuning.default.rateBasedMinBurstPackets.toNat bucket.maxDatagramSize :
      Exec Empty Nat) = .ok (rateBasedMinBurstPackets * bucket.maxDatagramSize) := by
    apply mulUsize_ok
    change 10 * bucket.maxDatagramSize < 2 ^ 64
    omega
  unfold tunedMaxBurstSize maxBurstSize
  by_cases hzero : bucket.bytesPerSec = 0
  · simp [hzero]
  · rw [if_neg hzero, if_neg hzero, hproduct, ok_bind, hleast]
    rfl

theorem RateBucket.tunedBudget_default {bucket : RateBucket} (h : bucket.Fits) {now : Nat} (hnow : now < 2 ^ 64) :
    bucket.tunedBudget profile .default now = .ok (bucket.budget now) := by
  rw [tunedBudget, tunedMaxBurstSize_default h, ok_bind, budget]
  cases bucket.lastSentTime with
  | none => rfl
  | some lastSentTime =>
    dsimp only
    rw [mulU128_ok profile h.bytesPerSec ((Nat.sub_le _ _).trans_lt hnow), ok_bind]
    rfl

theorem Pacer.tunedOnTransmit_default {pacer : Pacer} (h : pacer.rateBucket.Fits) {now : Nat} (hnow : now < 2 ^ 64)
    (packetLength : Nat) :
    pacer.tunedOnTransmit profile .default now packetLength = .ok (pacer.onTransmit now packetLength) := by
  unfold Pacer.tunedOnTransmit Pacer.onTransmit RateBucket.tunedOnTransmit
  rw [RateBucket.tunedBudget_default h hnow]
  split <;> rfl

theorem Pacer.tunedReconfigured_default {mtu rateBps : Nat} (hmtu : mtu < 2 ^ 16) (hrate : rateBps < 2 ^ 64)
    (pacer : Pacer) :
    pacer.tunedReconfigured profile .default mtu rateBps = .ok (pacer.reconfigured mtu rateBps) := by
  have hfits : RateBucket.Fits { pacer.rateBucket with maxDatagramSize := mtu, bytesPerSec := divCeil rateBps 8 } :=
    ⟨hmtu, Pacer.divCeil_lt hrate⟩
  unfold Pacer.tunedReconfigured Pacer.reconfigured RateBucket.tunedConfigure RateBucket.configure
  dsimp only
  rw [RateBucket.tunedMaxBurstSize_default hfits]
  split
  · split <;> rfl
  · rfl

theorem RateBucket.Fits.reconfigured {pacer : Pacer} {mtu rateBps : Nat} (hmtu : mtu < 2 ^ 16)
    (hrate : rateBps < 2 ^ 64) (h : pacer.rateBucket.Fits) : (pacer.reconfigured mtu rateBps).rateBucket.Fits := by
  have hbytes := Pacer.divCeil_lt hrate
  unfold Pacer.reconfigured RateBucket.configure
  split
  · split
    · exact ⟨hmtu, hbytes⟩
    · exact ⟨hmtu, hbytes⟩
  · exact h

/-- With its defaults the tuned pacer is the one before, as long as 64 bits hold the nanoseconds. -/
theorem Pacer.tunedDelay_default {pacer : Pacer} {mtu : Nat} {pacingRateBps : Option Nat} (hmtu : mtu < 2 ^ 16)
    (hrate : ∀ rateBps ∈ pacingRateBps, rateBps < 2 ^ 64) (h : pacer.rateBucket.Fits) (bytesToSend : Nat) {now : Nat}
    (hnow : now < 2 ^ 64) :
    pacer.tunedDelay profile .default mtu pacingRateBps now = .ok (pacer.delay bytesToSend mtu pacingRateBps now) := by
  have hfilter : (pacingRateBps.filter (0 < ·)).filter (fun _ => PacingTuning.default.useRateBasedPacing) =
      pacingRateBps.filter (0 < ·) := by simp [PacingTuning.default]
  unfold Pacer.tunedDelay Pacer.delay
  rw [hfilter]
  cases hactive : pacingRateBps.filter (0 < ·) with
  | none => rfl
  | some rateBps =>
    have hmem : rateBps ∈ pacingRateBps := (Option.filter_eq_some_iff.mp hactive).1
    have hfits := h.reconfigured hmtu (hrate rateBps hmem)
    dsimp only
    rw [tunedReconfigured_default hmtu (hrate rateBps hmem), ok_bind, RateBucket.tunedBudget_default hfits hnow, ok_bind]
    split_ifs <;> rfl

end

inductive PacerEvent where
  | delay (mtu : Nat) (pacingRateBps : Option Nat) (now : Nat)
  | onTransmit (now packetLength : Nat)
  /-- A call for the window pacing. -/
  | window (lastMtu tokens : Nat)
deriving DecidableEq, Repr

namespace Pacer

def step (profile : Profile) (tuning : PacingTuning) (pacer : Pacer) : PacerEvent → Option Pacer
  | .delay mtu pacingRateBps now => (pacer.tunedDelay profile tuning mtu pacingRateBps now).toOption.map Prod.fst
  | .onTransmit now packetLength => (pacer.tunedOnTransmit profile tuning now packetLength).toOption
  | .window lastMtu tokens => some { pacer with lastMtu, tokens, lastBehavior := .window }

/-- While the bucket is in use its packet size is the last one seen. -/
def Sound (pacer : Pacer) : Prop :=
  pacer.lastBehavior = .rateTokenBucket → pacer.rateBucket.maxDatagramSize = pacer.lastMtu

section
variable {profile : Profile} {tuning : PacingTuning} {mtu rateBps : Nat} {pacer after : Pacer}

theorem Configured.sound (h : pacer.Configured mtu rateBps) : pacer.Sound := fun _ => h.datagram.trans h.lastMtu.symm

theorem Configured.bytesPerSec_pos (h : pacer.Configured mtu rateBps) (hrate : 0 < rateBps) :
    0 < pacer.rateBucket.bytesPerSec := by
  rw [h.bytesPerSec]
  exact divCeil_pos hrate

theorem tunedReconfigured_configured (hsound : pacer.Sound)
    (h : pacer.tunedReconfigured profile tuning mtu rateBps = .ok after) : after.Configured mtu rateBps := by
  unfold tunedReconfigured RateBucket.tunedConfigure at h
  split at h
  · obtain ⟨rateBucket, hbucket, h⟩ := bind_eq_ok.mp h
    obtain ⟨maxBurstSize, -, hbucket⟩ := bind_eq_ok.mp hbucket
    cases h
    split at hbucket
    · cases hbucket
      exact ⟨rfl, rfl, rfl, rfl⟩
    · cases hbucket
      exact ⟨rfl, rfl, rfl, rfl⟩
  · next hsame =>
    cases h
    simp only [not_or, not_not] at hsame
    obtain ⟨hbehavior, hmtu, hbytes⟩ := hsame
    exact ⟨rfl, hmtu, (hsound hbehavior).trans hmtu, hbytes⟩

theorem Configured.tunedReconfigured (h : pacer.Configured mtu rateBps) :
    pacer.tunedReconfigured profile tuning mtu rateBps = .ok pacer := by
  unfold Pacer.tunedReconfigured
  rw [if_neg (by simp [h.behavior, h.lastMtu, h.bytesPerSec]), ← h.behavior]
  rfl

theorem Configured.tunedDelay (h : pacer.Configured mtu rateBps) (hrate : 0 < rateBps)
    (huse : tuning.useRateBasedPacing = true) {now budget : Nat}
    (hbudget : pacer.rateBucket.tunedBudget profile tuning now = .ok budget) :
    pacer.tunedDelay profile tuning mtu (some rateBps) now =
      .ok (pacer, if mtu ≤ budget then none
        else some (pacer.rateBucket.lastSentTime.getD now +
          min (max (waitNanos (divCeil rateBps 8) (mtu - budget)) tuning.minRateBasedDelayNanos.toNat) u64Max)) := by
  have hactive : ((some rateBps).filter (0 < ·)).filter (fun _ => tuning.useRateBasedPacing) = some rateBps := by
    simp [hrate, huse]
  have hbytes : ¬ divCeil rateBps 8 = 0 := Nat.ne_of_gt (divCeil_pos hrate)
  unfold Pacer.tunedDelay
  rw [hactive]
  dsimp only
  rw [h.tunedReconfigured, ok_bind, hbudget, ok_bind]
  simp only [h.bytesPerSec, hbytes, if_false, ge_iff_le]
  split_ifs <;> rfl

theorem Configured.tunedDelay_none_iff (h : pacer.Configured mtu rateBps) (hrate : 0 < rateBps)
    (huse : tuning.useRateBasedPacing = true) {now budget : Nat}
    (hbudget : pacer.rateBucket.tunedBudget profile tuning now = .ok budget) :
    (pacer.tunedDelay profile tuning mtu (some rateBps) now).map Prod.snd = .ok none ↔ mtu ≤ budget := by
  rw [h.tunedDelay hrate huse hbudget]
  split_ifs with henough
  · exact iff_of_true rfl henough
  · refine iff_of_false ?_ henough
    rintro ⟨⟩

theorem Configured.of_tunedDelay_some (h : pacer.Configured mtu rateBps) (hrate : 0 < rateBps)
    (huse : tuning.useRateBasedPacing = true) {now t budget : Nat}
    (hbudget : pacer.rateBucket.tunedBudget profile tuning now = .ok budget)
    (hdelay : pacer.tunedDelay profile tuning mtu (some rateBps) now = .ok (after, some t)) :
    ¬ mtu ≤ budget ∧ t = pacer.rateBucket.lastSentTime.getD now +
      min (max (waitNanos (divCeil rateBps 8) (mtu - budget)) tuning.minRateBasedDelayNanos.toNat) u64Max := by
  rw [h.tunedDelay hrate huse hbudget] at hdelay
  split_ifs at hdelay with henough
  · cases hdelay
  · cases hdelay
    exact ⟨henough, rfl⟩

theorem tunedDelay_cases {pacingRateBps : Option Nat} {now : Nat} {t : Option Nat} (hsound : pacer.Sound)
    (h : pacer.tunedDelay profile tuning mtu pacingRateBps now = .ok (after, t)) :
    after = pacer ∧ t = none ∨
      ∃ rateBps budget, pacingRateBps = some rateBps ∧ 0 < rateBps ∧ tuning.useRateBasedPacing = true ∧
        pacer.tunedReconfigured profile tuning mtu rateBps = .ok after ∧ after.Configured mtu rateBps ∧
        after.rateBucket.tunedBudget profile tuning now = .ok budget ∧
        after.tunedDelay profile tuning mtu pacingRateBps now = .ok (after, t) := by
  unfold tunedDelay at h ⊢
  cases hactive : (pacingRateBps.filter (0 < ·)).filter fun _ => tuning.useRateBasedPacing with
  | none =>
    rw [hactive] at h
    cases h
    exact .inl ⟨rfl, rfl⟩
  | some rateBps =>
    rw [hactive] at h
    obtain ⟨hpositive, huse⟩ := Option.filter_eq_some_iff.mp hactive
    obtain ⟨hrate, hpos⟩ := Option.filter_eq_some_iff.mp hpositive
    obtain ⟨configured, hreconfigured, h⟩ := bind_eq_ok.mp h
    obtain ⟨budget, hbudget, hrest⟩ := bind_eq_ok.mp h
    have hafter : after = configured := by
      split_ifs at hrest <;> cases hrest <;> rfl
    subst hafter
    have hconfigured := tunedReconfigured_configured hsound hreconfigured
    refine .inr ⟨rateBps, budget, hrate, of_decide_eq_true hpos, huse, hreconfigured, hconfigured, hbudget, ?_⟩
    dsimp only
    rw [hconfigured.tunedReconfigured, ok_bind]
    exact h

theorem step_sound {event : PacerEvent} (hsound : pacer.Sound) (hstep : pacer.step profile tuning event = some after) :
    after.Sound := by
  cases event with
  | delay mtu pacingRateBps now =>
    obtain ⟨⟨checked, t⟩, hdelay, ⟨⟩⟩ := ok_of_toOption hstep
    rcases tunedDelay_cases hsound hdelay with
      ⟨hsame, -⟩ | ⟨rateBps, budget, -, -, -, -, hconfigured, -⟩
    · rw [hsame]
      exact hsound
    · exact hconfigured.sound
  | onTransmit now packetLength =>
    obtain ⟨sent, hsent, ⟨⟩⟩ := ok_of_toOption (Option.map_id_apply.trans hstep)
    unfold tunedOnTransmit RateBucket.tunedOnTransmit at hsent
    split at hsent
    · obtain ⟨rateBucket, hbucket, hsent⟩ := bind_eq_ok.mp hsent
      obtain ⟨budget, -, hbucket⟩ := bind_eq_ok.mp hbucket
      cases hbucket
      cases hsent
      exact hsound
    · cases hsent
      exact hsound
  | window lastMtu tokens =>
    cases hstep
    exact nofun

theorem run_sound {capacity firstMtu : Nat} {events : List PacerEvent}
    (hrun : run (step profile tuning) (new capacity firstMtu) events = some pacer) : pacer.Sound :=
  run_induction (fun _ _ _ hsound hstep => step_sound hsound hstep) (show (new capacity firstMtu).Sound from nofun) hrun

end
end Pacer

theorem divCeil_le_iff {a b n : Nat} (hb : 0 < b) : divCeil a b ≤ n ↔ a ≤ b * n := by
  rw [divCeil, ← Nat.ceilDiv_eq_add_pred_div, ceilDiv_le_iff_le_mul hb]

theorem Pacer.waitNanos_mono {bytesPerSec deficit deficit' : Nat} (h : deficit ≤ deficit') :
    waitNanos bytesPerSec deficit ≤ waitNanos bytesPerSec deficit' := by
  unfold waitNanos divCeil
  gcongr

theorem Pacer.waitNanos_le_iff {bytesPerSec amount elapsed : Nat} (hrate : 0 < bytesPerSec) :
    waitNanos bytesPerSec amount ≤ elapsed ↔ amount ≤ bytesPerSec * elapsed / 1000000000 := by
  rw [waitNanos, divCeil_le_iff hrate, Nat.le_div_iff_mul_le (by decide)]

namespace RateBucket
variable {profile : Profile} {tuning : PacingTuning} {bucket : RateBucket} {last mtu burst : Nat}

theorem tunedBudget_none (hburst : bucket.tunedMaxBurstSize profile tuning = .ok burst)
    (hlast : bucket.lastSentTime = none) (now : Nat) : bucket.tunedBudget profile tuning now = .ok burst := by
  rw [tunedBudget, hburst, hlast]
  rfl

theorem tunedBudget_some (hburst : bucket.tunedMaxBurstSize profile tuning = .ok burst)
    (hlast : bucket.lastSentTime = some last) {now : Nat} (hfits : bucket.bytesPerSec * (now - last) < 2 ^ 128) :
    bucket.tunedBudget profile tuning now =
      .ok (bucket.budgetWithin burst (bucket.bytesPerSec * (now - last) / 1000000000)) := by
  rw [tunedBudget, hburst, hlast, ok_bind]
  dsimp only
  rw [mulU128, if_pos hfits]
  rfl

theorem le_budgetWithin_iff (hmtu : mtu < 2 ^ 16) (hburst : mtu ≤ burst) (earned : Nat) :
    mtu ≤ bucket.budgetWithin burst earned ↔ mtu - bucket.budgetAtLastSent ≤ earned := by
  have hmax : u64Max = 2 ^ 64 - 1 := rfl
  unfold budgetWithin saturatingAdd
  omega

theorem budgetWithin_le (burst : Nat) (bucket : RateBucket) (earned : Nat) : bucket.budgetWithin burst earned ≤ burst :=
  Nat.min_le_left _ _

theorem sub_budgetWithin (hmtu : mtu < 2 ^ 16) (hburst : mtu ≤ burst) (earned : Nat) :
    mtu - bucket.budgetWithin burst earned = mtu - bucket.budgetAtLastSent - earned := by
  have hmax : u64Max = 2 ^ 64 - 1 := rfl
  unfold budgetWithin saturatingAdd
  omega

end RateBucket

theorem RateBucket.le_tunedMaxBurstSize {profile : Profile} {tuning : PacingTuning} {bucket : RateBucket} {burst : Nat}
    (h : bucket.tunedMaxBurstSize profile tuning = .ok burst) (hrate : 0 < bucket.bytesPerSec)
    (hpackets : 1 ≤ tuning.rateBasedMinBurstPackets.toNat)
    (hfits : tuning.rateBasedMinBurstPackets.toNat * bucket.maxDatagramSize < usizeSize) :
    bucket.maxDatagramSize ≤ burst := by
  unfold tunedMaxBurstSize at h
  rw [if_neg (Nat.ne_of_gt hrate)] at h
  obtain ⟨product, -, h⟩ := bind_eq_ok.mp h
  rw [mulUsize_ok profile hfits] at h
  cases h
  calc bucket.maxDatagramSize
      ≤ tuning.rateBasedMinBurstPackets.toNat * bucket.maxDatagramSize := Nat.le_mul_of_pos_left _ hpackets
    _ ≤ _ := Nat.le_max_right _ _

namespace Pacer

theorem wait_le_iff {rate least missing deficit : Nat} (hrate : 0 < rate)
    (hmissing : missing < 2 ^ 16) (hle : deficit ≤ missing) :
    waitNanos rate missing ≤ min (max (waitNanos rate deficit) least) u64Max ↔
      waitNanos rate missing ≤ least ∨ waitNanos rate deficit = waitNanos rate missing := by
  have hmono := @waitNanos_mono rate _ _ hle
  have hmax : waitNanos rate missing ≤ u64Max := by
    rw [waitNanos, divCeil_le_iff hrate, u64Max]
    calc missing * 1000000000 ≤ 2 ^ 64 - 1 := by omega
      _ ≤ rate * (2 ^ 64 - 1) := Nat.le_mul_of_pos_left _ hrate
  omega

/-- A packet was missing something when the last one was sent, more than the rate has earned since. The minimum
covers the wait for it, or what was earned does not shorten that wait. -/
def Covers (least rate mtu now : Nat) (bucket : RateBucket) : Prop :=
  ∃ last, bucket.lastSentTime = some last ∧
    rate * (now - last) / 1000000000 < mtu - bucket.budgetAtLastSent ∧
    (waitNanos rate (mtu - bucket.budgetAtLastSent) ≤ least ∨
      waitNanos rate (mtu - bucket.budgetAtLastSent - rate * (now - last) / 1000000000) =
        waitNanos rate (mtu - bucket.budgetAtLastSent))

theorem covers_iff {least rate mtu now last : Nat} {bucket : RateBucket} (hlast : bucket.lastSentTime = some last) :
    Covers least rate mtu now bucket ↔ rate * (now - last) / 1000000000 < mtu - bucket.budgetAtLastSent ∧
      (waitNanos rate (mtu - bucket.budgetAtLastSent) ≤ least ∨
        waitNanos rate (mtu - bucket.budgetAtLastSent - rate * (now - last) / 1000000000) =
          waitNanos rate (mtu - bucket.budgetAtLastSent)) := by
  simp [Covers, hlast]

section
variable {profile : Profile} {tuning : PacingTuning} {pacer after : Pacer} {mtu rateBps burst last now t budget : Nat}

theorem Configured.tunedMaxBurstSize (h : pacer.Configured mtu rateBps) :
    pacer.rateBucket.tunedMaxBurstSize profile tuning =
      RateBucket.tunedMaxBurstSize profile tuning ⟨0, mtu, none, divCeil rateBps 8⟩ := by
  simp only [RateBucket.tunedMaxBurstSize, h.datagram, h.bytesPerSec]

theorem Configured.suffices_iff_of_last (h : pacer.Configured mtu rateBps) (hpositive : 0 < rateBps)
    (hrate : rateBps < 2 ^ 64) (hburst : pacer.rateBucket.tunedMaxBurstSize profile tuning = .ok burst)
    (hpacket : mtu ≤ burst) (hmtu : mtu < 2 ^ 16) (hlast : pacer.rateBucket.lastSentTime = some last)
    (hbudget : pacer.rateBucket.tunedBudget profile tuning now = .ok budget) (hnow : ¬ mtu ≤ budget)
    (ht : t = last + min (max (waitNanos (divCeil rateBps 8) (mtu - budget)) tuning.minRateBasedDelayNanos.toNat) u64Max) :
    now < t ∧ waitNanos (divCeil rateBps 8) (mtu - pacer.rateBucket.budgetAtLastSent) ≤ t - last ↔
      Covers tuning.minRateBasedDelayNanos.toNat (divCeil rateBps 8) mtu now pacer.rateBucket := by
  have hpos := divCeil_pos hpositive
  have hwithin := @RateBucket.tunedBudget_some profile tuning pacer.rateBucket last burst hburst hlast now
  rw [h.bytesPerSec] at hwithin
  rw [covers_iff hlast]
  by_cases hearned : divCeil rateBps 8 * (now - last) / 1000000000 < mtu - pacer.rateBucket.budgetAtLastSent
  · have hfits : divCeil rateBps 8 * (now - last) < 2 ^ 128 := by
      have := (Nat.div_lt_iff_lt_mul (by decide)).mp hearned
      omega
    cases hbudget.symm.trans (hwithin hfits)
    subst ht
    rw [RateBucket.sub_budgetWithin hmtu hpacket, and_iff_right hearned, Nat.add_sub_cancel_left,
      ← wait_le_iff hpos ((Nat.sub_le _ _).trans_lt hmtu) (Nat.sub_le _ _)]
    -- a wait that is long enough also ends later
    refine and_iff_right_of_imp fun hwait => lt_add_of_tsub_lt_left (Nat.lt_of_lt_of_le ?_ hwait)
    exact Nat.lt_of_not_le fun hle => Nat.not_le_of_lt hearned ((waitNanos_le_iff hpos).mp hle)
  · refine iff_of_false (fun hsuffices => ?_) (fun hcovers => hearned hcovers.1)
    -- the product is only cut off where the instant has long passed
    have helapsed : now - last < 2 ^ 64 := by
      have hle : t ≤ last + u64Max := ht ▸ Nat.add_le_add_left (Nat.min_le_right _ _) _
      have hlt := Nat.lt_of_lt_of_le hsuffices.1 hle
      rw [u64Max] at hlt
      omega
    cases hbudget.symm.trans (hwithin (mul_lt_u128 (divCeil_lt hrate) helapsed))
    exact hnow ((RateBucket.le_budgetWithin_iff hmtu hpacket _).mpr (Nat.le_of_not_lt hearned))

theorem Configured.suffices_iff (h : pacer.Configured mtu rateBps) (hpositive : 0 < rateBps) (hrate : rateBps < 2 ^ 64)
    (huse : tuning.useRateBasedPacing = true)
    (hburst : pacer.rateBucket.tunedMaxBurstSize profile tuning = .ok burst) (hmtu : mtu < 2 ^ 16)
    (hbudget : pacer.rateBucket.tunedBudget profile tuning now = .ok budget)
    (hdelay : pacer.tunedDelay profile tuning mtu (some rateBps) now = .ok (after, some t)) :
    now < t ∧ (pacer.tunedDelay profile tuning mtu (some rateBps) t).map Prod.snd = .ok none ↔
      mtu ≤ burst ∧
        Covers tuning.minRateBasedDelayNanos.toNat (divCeil rateBps 8) mtu now pacer.rateBucket := by
  obtain ⟨hnow, ht⟩ := h.of_tunedDelay_some hpositive huse hbudget hdelay
  cases hlast : pacer.rateBucket.lastSentTime with
  | none =>
    have hfull := RateBucket.tunedBudget_none hburst hlast
    cases hbudget.symm.trans (hfull now)
    exact iff_of_false (fun hsuffices => hnow ((h.tunedDelay_none_iff hpositive huse (hfull t)).mp hsuffices.2))
      (fun hcovers => hnow hcovers.1)
  | some last =>
    rw [hlast, Option.getD_some] at ht
    have hthen : pacer.rateBucket.bytesPerSec * (t - last) < 2 ^ 128 := by
      have hmax : u64Max = 2 ^ 64 - 1 := rfl
      rw [h.bytesPerSec]
      exact mul_lt_u128 (divCeil_lt hrate) (by omega)
    rw [h.tunedDelay_none_iff hpositive huse (RateBucket.tunedBudget_some hburst hlast hthen)]
    by_cases hpacket : mtu ≤ burst
    · rw [RateBucket.le_budgetWithin_iff hmtu hpacket, ← waitNanos_le_iff (h.bytesPerSec_pos hpositive), h.bytesPerSec,
        and_iff_right hpacket]
      exact h.suffices_iff_of_last hpositive hrate hburst hpacket hmtu hlast hbudget hnow ht
    · exact iff_of_false (fun hsuffices => hpacket (hsuffices.2.trans (RateBucket.budgetWithin_le ..)))
        (fun hcovers => hpacket hcovers.1)

theorem tunedReconfigured_last (h : pacer.tunedReconfigured profile tuning mtu rateBps = .ok after)
    (hburst : after.rateBucket.tunedMaxBurstSize profile tuning = .ok burst) :
    after.rateBucket.lastSentTime = none ∨
      after.rateBucket.lastSentTime = pacer.rateBucket.lastSentTime ∧
        (after.rateBucket.budgetAtLastSent = pacer.rateBucket.budgetAtLastSent ∨
          after.rateBucket.budgetAtLastSent = min pacer.rateBucket.budgetAtLastSent burst) := by
  unfold tunedReconfigured RateBucket.tunedConfigure at h
  split at h
  · obtain ⟨rateBucket, hbucket, h⟩ := bind_eq_ok.mp h
    obtain ⟨maxBurstSize, hsize, hbucket⟩ := bind_eq_ok.mp hbucket
    cases h
    split at hbucket
    · cases hbucket
      exact .inl rfl
    · cases hbucket
      cases hburst.symm.trans hsize
      exact .inr ⟨rfl, .inr rfl⟩
  · cases h
    exact .inr ⟨rfl, .inl rfl⟩

theorem covers_reconfigured_iff {least rate : Nat} (h : pacer.tunedReconfigured profile tuning mtu rateBps = .ok after)
    (hburst : after.rateBucket.tunedMaxBurstSize profile tuning = .ok burst) (hpacket : mtu ≤ burst)
    (hlast : after.rateBucket.lastSentTime ≠ none) :
    Covers least rate mtu now after.rateBucket ↔ Covers least rate mtu now pacer.rateBucket := by
  obtain ⟨hsame, hbudget⟩ := (tunedReconfigured_last h hburst).resolve_left hlast
  have hmissing : mtu - after.rateBucket.budgetAtLastSent = mtu - pacer.rateBucket.budgetAtLastSent := by omega
  rw [Covers, Covers, hsame, hmissing]

end

/-- In every state that can be reached, whatever the rates and packet sizes before: if a check gives an instant,
that instant is later and a check then gives none exactly if a burst is at least a packet and the wait
covers what was missing when the last packet was sent. -/
theorem instant_suffices_iff (profile : Profile) (tuning : PacingTuning) (capacity firstMtu : Nat)
    (events : List PacerEvent) {pacer after : Pacer}
    (hrun : run (step profile tuning) (new capacity firstMtu) events = some pacer) {mtu rateBps : Nat}
    (hmtu : mtu < 2 ^ 16) (hrate : rateBps < 2 ^ 64) (now : Nat) {t : Nat}
    (hdelay : pacer.tunedDelay profile tuning mtu (some rateBps) now = .ok (after, some t)) :
    ∃ burst, RateBucket.tunedMaxBurstSize profile tuning ⟨0, mtu, none, divCeil rateBps 8⟩ = .ok burst ∧
      (1 ≤ tuning.rateBasedMinBurstPackets.toNat → tuning.rateBasedMinBurstPackets.toNat * mtu < usizeSize →
        mtu ≤ burst) ∧
      (now < t ∧ (after.tunedDelay profile tuning mtu (some rateBps) t).map Prod.snd = .ok none ↔
        mtu ≤ burst ∧
          Covers tuning.minRateBasedDelayNanos.toNat (divCeil rateBps 8) mtu now pacer.rateBucket) := by
  rcases tunedDelay_cases (run_sound hrun) hdelay with ⟨-, hnone⟩ |
    ⟨rateBps, budget, ⟨⟩, hpositive, huse, hreconfigured, hconfigured, hbudget, hagain⟩
  · cases hnone
  obtain ⟨burst, hburst, -⟩ := bind_eq_ok.mp hbudget
  have hnow := (hconfigured.of_tunedDelay_some hpositive huse hbudget hagain).1
  refine ⟨burst, hconfigured.tunedMaxBurstSize.symm.trans hburst, ?_, ?_⟩
  · intro hpackets hfits
    rw [← hconfigured.datagram] at hfits ⊢
    exact RateBucket.le_tunedMaxBurstSize hburst (hconfigured.bytesPerSec_pos hpositive) hpackets hfits
  · rw [hconfigured.suffices_iff hpositive hrate huse hburst hmtu hbudget hagain]
    refine and_congr_right fun hpacket => covers_reconfigured_iff hreconfigured hburst hpacket ?_
    -- without a last packet the bucket is full
    intro hlast
    cases hbudget.symm.trans (RateBucket.tunedBudget_none hburst hlast now)
    exact hnow hpacket

def tenPackets : List PacerEvent := .delay 1500 (some 12000) 0 :: List.replicate 10 (.onTransmit 0 1500)

def emptied : Pacer := ⟨1500, 0, .rateTokenBucket, ⟨0, 1500, some 0, 1500⟩⟩

theorem instant_suffices_atOnce :
    run (step ⟨true⟩ .default) (new 0 1500) tenPackets = some emptied ∧
      emptied.tunedDelay ⟨true⟩ .default 1500 (some 12000) 0 = .ok (emptied, some 1000000000) ∧
      ∃ burst, RateBucket.tunedMaxBurstSize ⟨true⟩ .default ⟨0, 1500, none, divCeil 12000 8⟩ = .ok burst ∧
        (1 ≤ PacingTuning.default.rateBasedMinBurstPackets.toNat →
          PacingTuning.default.rateBasedMinBurstPackets.toNat * 1500 < usizeSize → 1500 ≤ burst) ∧
        (0 < 1000000000 ∧
            (emptied.tunedDelay ⟨true⟩ .default 1500 (some 12000) 1000000000).map Prod.snd = .ok none ↔
          1500 ≤ burst ∧
            Covers PacingTuning.default.minRateBasedDelayNanos.toNat (divCeil 12000 8) 1500 0 emptied.rateBucket) := by
  have hrun : run (step ⟨true⟩ .default) (new 0 1500) tenPackets = some emptied := by decide +kernel
  have hdelay : emptied.tunedDelay ⟨true⟩ .default 1500 (some 12000) 0 = .ok (emptied, some 1000000000) := by
    decide +kernel
  exact ⟨hrun, hdelay, instant_suffices_iff ⟨true⟩ .default 0 1500 tenPackets hrun (by decide) (by decide) 0 hdelay⟩

/-- Nine tenths of a second later the check gives an instant eight tenths of a second ago, when there was no
budget for a packet. -/
theorem instant_in_the_past :
    run (step ⟨true⟩ .default) (new 0 1500) tenPackets = some emptied ∧
      emptied.tunedDelay ⟨true⟩ .default 1500 (some 12000) 900000000 = .ok (emptied, some 100000000) ∧
      emptied.tunedDelay ⟨true⟩ .default 1500 (some 12000) 100000000 = .ok (emptied, some 900000000) := by
  decide +kernel

end Pacer
end Hysteria.Quinn
