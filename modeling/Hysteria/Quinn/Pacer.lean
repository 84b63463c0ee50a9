import Hysteria.Lib.TokenBucket
import Hysteria.Lib.Transition
import Mathlib.Algebra.Group.Nat.Defs
import Mathlib.Data.Nat.Cast.Order.Field
import Mathlib.Tactic.Ring

/-! The rate token bucket of `pacing.rs`, which the Brutal congestion control paces with,
and the way `poll_transmit` uses it: the check for the next packet comes before the packet
that is being built is reported. The tuning has its defaults. Instants are in nanoseconds, and
the product of a time with the rate is exact, which 128 bits hold for five hundred years. -/
namespace Hysteria.Quinn
open Lib

def u64Max : Nat := 2 ^ 64 - 1

def divCeil (a b : Nat) : Nat := (a + b - 1) / b

def saturatingAdd (a b : Nat) : Nat := min (a + b) u64Max

def rateBasedBurstIntervalNanos : Nat := 4000000
def minRateBasedDelayNanos : Nat := 1000000
def rateBasedMinBurstPackets : Nat := 10

inductive PacingBehavior where
  | window
  | rateTokenBucket
deriving DecidableEq, Repr

structure RateBucket where
  budgetAtLastSent : Nat
  maxDatagramSize : Nat
  lastSentTime : Option Nat
  bytesPerSec : Nat
deriving DecidableEq, Repr

namespace RateBucket

def maxBurstSize (bucket : RateBucket) : Nat :=
  if bucket.bytesPerSec = 0 then min (bucket.maxDatagramSize * rateBasedMinBurstPackets) u64Max
  else
    let rateBurst := divCeil (bucket.bytesPerSec * rateBasedBurstIntervalNanos) 1000000000 % 2 ^ 64
    max rateBurst (rateBasedMinBurstPackets * bucket.maxDatagramSize)

def configure (bucket : RateBucket) (mtu rateBps : Nat) (resetBudget : Bool) : RateBucket :=
  let configured := { bucket with maxDatagramSize := mtu, bytesPerSec := divCeil rateBps 8 }
  if resetBudget || bucket.lastSentTime.isNone then
    { configured with budgetAtLastSent := configured.maxBurstSize, lastSentTime := none }
  else { configured with budgetAtLastSent := min bucket.budgetAtLastSent configured.maxBurstSize }

def budget (bucket : RateBucket) (now : Nat) : Nat :=
  match bucket.lastSentTime with
  | none => bucket.maxBurstSize
  | some lastSentTime =>
    let elapsed := now - lastSentTime
    min bucket.maxBurstSize
      (saturatingAdd bucket.budgetAtLastSent (min (bucket.bytesPerSec * elapsed / 1000000000) u64Max))

def onTransmit (bucket : RateBucket) (now packetLength : Nat) : RateBucket :=
  { bucket with budgetAtLastSent := bucket.budget now - packetLength, lastSentTime := some now }

theorem budget_le_maxBurstSize (bucket : RateBucket) (now : Nat) : bucket.budget now ≤ bucket.maxBurstSize := by
  unfold budget
  split
  · exact Nat.le_refl _
  · exact Nat.min_le_left _ _

theorem budget_mono (bucket : RateBucket) {now later : Nat} (h : now ≤ later) :
    bucket.budget now ≤ bucket.budget later := by
  unfold budget
  split
  · exact Nat.le_refl _
  · next lastSentTime _ =>
    have helapsed : bucket.bytesPerSec * (now - lastSentTime) / 1000000000 ≤
        bucket.bytesPerSec * (later - lastSentTime) / 1000000000 := by gcongr
    unfold saturatingAdd
    dsimp only
    omega

theorem budget_onTransmit_le (bucket : RateBucket) (now packetLength later : Nat) :
    (bucket.onTransmit now packetLength).budget later ≤ bucket.maxBurstSize ∧
      (bucket.onTransmit now packetLength).budget later ≤
        bucket.budget now - packetLength + bucket.bytesPerSec * (later - now) / 1000000000 := by
  constructor
  · exact Nat.min_le_left _ _
  · refine (Nat.min_le_right _ _).trans ((Nat.min_le_left _ _).trans ?_)
    exact Nat.add_le_add_left (Nat.min_le_left _ _) _

theorem budget_onTransmit_self (bucket : RateBucket) (now packetLength : Nat) :
    (bucket.onTransmit now packetLength).budget now =
      min bucket.maxBurstSize (min (bucket.budget now - packetLength) u64Max) := by
  simp [onTransmit, budget, saturatingAdd, maxBurstSize]

end RateBucket

/-- Of the fields of the window pacing only the tokens are here, which a packet is debited
from while the rate token bucket is not in use. -/
structure Pacer where
  lastMtu : Nat
  tokens : Nat
  lastBehavior : PacingBehavior
  rateBucket : RateBucket
deriving DecidableEq, Repr

namespace Pacer

def new (capacity mtu : Nat) : Pacer where
  lastMtu := mtu
  tokens := capacity
  lastBehavior := .window
  rateBucket := ⟨0, mtu, none, 0⟩

def onTransmit (pacer : Pacer) (now packetLength : Nat) : Pacer :=
  if pacer.lastBehavior = .rateTokenBucket ∧ 0 < pacer.rateBucket.bytesPerSec then
    { pacer with rateBucket := pacer.rateBucket.onTransmit now packetLength }
  else { pacer with tokens := pacer.tokens - packetLength }

/-- The head of the branch, which configures the bucket where something has changed. -/
def reconfigured (pacer : Pacer) (mtu rateBps : Nat) : Pacer :=
  if pacer.lastBehavior ≠ .rateTokenBucket ∨ pacer.lastMtu ≠ mtu ∨
      pacer.rateBucket.bytesPerSec ≠ divCeil rateBps 8 then
    { pacer with
      rateBucket := pacer.rateBucket.configure mtu rateBps (pacer.lastBehavior ≠ .rateTokenBucket)
      lastMtu := mtu
      lastBehavior := .rateTokenBucket }
  else { pacer with lastBehavior := .rateTokenBucket }

/-- The branch for the rate token bucket. It does not read how many bytes there are to
send. -/
def delay (pacer : Pacer) (_bytesToSend mtu : Nat) (pacingRateBps : Option Nat) (now : Nat) :
    Pacer × Option Nat :=
  match pacingRateBps.filter (0 < ·) with
  | none => (pacer, none)
  | some rateBps =>
    let pacer := pacer.reconfigured mtu rateBps
    let bytesNeeded := mtu
    let budget := pacer.rateBucket.budget now
    if budget ≥ bytesNeeded then (pacer, none)
    else if pacer.rateBucket.bytesPerSec = 0 then (pacer, none)
    else
      let deficit := bytesNeeded - budget
      let delayNanos := divCeil (deficit * 1000000000) pacer.rateBucket.bytesPerSec
      let delayNanos := max delayNanos minRateBasedDelayNanos
      let delayNanos := min delayNanos u64Max
      (pacer, some (pacer.rateBucket.lastSentTime.getD now + delayNanos))

structure Configured (mtu rateBps : Nat) (pacer : Pacer) : Prop where
  behavior : pacer.lastBehavior = .rateTokenBucket
  lastMtu : pacer.lastMtu = mtu
  datagram : pacer.rateBucket.maxDatagramSize = mtu
  bytesPerSec : pacer.rateBucket.bytesPerSec = divCeil rateBps 8

theorem divCeil_pos {rateBps : Nat} (hrate : 0 < rateBps) : 0 < divCeil rateBps 8 := by
  unfold divCeil
  omega

theorem Configured.reconfigured {mtu rateBps : Nat} {pacer : Pacer} (h : pacer.Configured mtu rateBps) :
    pacer.reconfigured mtu rateBps = pacer := by
  unfold Pacer.reconfigured
  rw [if_neg (by simp [h.behavior, h.lastMtu, h.bytesPerSec]), ← h.behavior]

theorem reconfigured_of_window {mtu rateBps : Nat} {pacer : Pacer} (h : pacer.lastBehavior = .window) :
    (pacer.reconfigured mtu rateBps).Configured mtu rateBps ∧
      (pacer.reconfigured mtu rateBps).rateBucket.lastSentTime = none := by
  unfold reconfigured RateBucket.configure
  rw [if_pos (by simp [h])]
  simp only [h, ne_eq, reduceCtorEq, not_false_eq_true, decide_true, Bool.true_or, if_true]
  exact ⟨⟨rfl, rfl, rfl, rfl⟩, trivial⟩

theorem delay_fst {mtu rateBps : Nat} (hrate : 0 < rateBps) (pacer : Pacer) (bytesToSend now : Nat) :
    (pacer.delay bytesToSend mtu (some rateBps) now).1 = pacer.reconfigured mtu rateBps := by
  have hsome : (some rateBps).filter (0 < ·) = some rateBps := by simp [hrate]
  unfold delay
  rw [hsome]
  dsimp only
  split_ifs <;> rfl

end Pacer

/-- A packet that is being built. `covered` is not in the source: whether the check that
let it start found a budget for all of `bytes_to_send`. -/
structure Packet where
  bytes : Nat
  covered : Bool
deriving DecidableEq, Repr

structure Report where
  time : Nat
  packet : Packet
  budget : Nat
deriving DecidableEq, Repr

/-- `cleared` holds what the last check found, if it let a packet start and none has;
`reports` is latest first. -/
structure Sender where
  pacer : Pacer
  now : Nat
  cleared : Option Bool
  unfinished : Option Packet
  reports : List Report
deriving DecidableEq, Repr

inductive SenderEvent where
  | check (now : Nat)
  | start (bytes : Nat)
  | finish (now : Nat)
deriving DecidableEq, Repr

namespace Sender

def new (capacity firstMtu now : Nat) : Sender where
  pacer := .new capacity firstMtu
  now := now
  cleared := none
  unfinished := none
  reports := []

def bytesToSend (mtu : Nat) (s : Sender) : Nat :=
  mtu + (s.unfinished.map Packet.bytes).getD 0

def check (rateBps mtu : Nat) (s : Sender) (now : Nat) : Sender :=
  let checked := s.pacer.delay (s.bytesToSend mtu) mtu (some rateBps) now
  { s with
    pacer := checked.1
    now := now
    cleared :=
      match checked.2 with
      | none => some (s.bytesToSend mtu ≤ checked.1.rateBucket.budget now)
      | some _ => none }

def finish (s : Sender) (now : Nat) (packet : Packet) : Sender :=
  { s with
    pacer := s.pacer.onTransmit now packet.bytes
    now := now
    unfinished := none
    reports := ⟨now, packet, s.pacer.rateBucket.budget now⟩ :: s.reports }

def step (rateBps mtu : Nat) (s : Sender) : SenderEvent → Option Sender
  | .check now => if now < s.now then none else some (s.check rateBps mtu now)
  | .start bytes =>
    match s.cleared, s.unfinished with
    | some covered, none =>
      if bytes ≤ mtu then some { s with cleared := none, unfinished := some ⟨bytes, covered⟩ } else none
    | _, _ => none
  | .finish now =>
    match s.unfinished with
    | some packet => if now < s.now then none else some (s.finish now packet)
    | none => none

end Sender

def reportsBetween (t₀ t₁ : Nat) (reports : List Report) : List Report :=
  reports.filter fun report => t₀ ≤ report.time ∧ report.time ≤ t₁

def reportedBetween (t₀ t₁ : Nat) (reports : List Report) : Nat :=
  ((reportsBetween t₀ t₁ reports).map fun report => report.packet.bytes).sum

/-- The packets reported from one instant to another that a check with too small a budget
let start. -/
def uncoveredBetween (t₀ t₁ : Nat) (reports : List Report) : Nat :=
  (reportsBetween t₀ t₁ reports).countP fun report => !report.packet.covered

def Report.taken (report : Report) : Nat := min report.packet.bytes report.budget

def Report.withdrawal (report : Report) : Withdrawal Rat := ⟨report.time, report.taken⟩

def burst (mtu rateBps : Nat) : Nat := RateBucket.maxBurstSize ⟨0, mtu, none, divCeil rateBps 8⟩

def ratePerNano (rateBps : Nat) : Rat := (divCeil rateBps 8 : Nat) / 1000000000

theorem Pacer.Configured.maxBurstSize {mtu rateBps : Nat} {pacer : Pacer} (h : pacer.Configured mtu rateBps) :
    pacer.rateBucket.maxBurstSize = burst mtu rateBps := by
  simp only [RateBucket.maxBurstSize, burst, h.datagram, h.bytesPerSec]

theorem ratePerNano_nonneg (rateBps : Nat) : 0 ≤ ratePerNano rateBps := by
  unfold ratePerNano
  positivity

/-- A report that was in order: no longer than a packet can be, and within the budget if
its check was. -/
def Report.Valid (mtu : Nat) (report : Report) : Prop :=
  report.packet.bytes ≤ mtu ∧ (report.packet.covered = true → report.packet.bytes ≤ report.budget)

theorem Report.Valid.later {mtu time budget budget' : Nat} {packet : Packet}
    (h : Report.Valid mtu ⟨time, packet, budget⟩) (hbudget : budget ≤ budget') (time' : Nat) :
    Report.Valid mtu ⟨time', packet, budget'⟩ :=
  ⟨h.1, fun hcovered => (h.2 hcovered).trans hbudget⟩

theorem RateBucket.onTransmit_metered {bucket : RateBucket} {rateBps mtu now later : Nat} {reports : List Report}
    (hbytes : bucket.bytesPerSec = divCeil rateBps 8) (hburst : bucket.maxBurstSize = burst mtu rateBps)
    (h : Metered (burst mtu rateBps : Rat) (ratePerNano rateBps) now (bucket.budget now)
      (reports.map Report.withdrawal)) (packet : Packet) (hlater : now ≤ later) :
    Metered (burst mtu rateBps : Rat) (ratePerNano rateBps) later
      ((bucket.onTransmit now packet.bytes).budget later)
      ((Report.mk now packet (bucket.budget now) :: reports).map Report.withdrawal) := by
  have htake : min packet.bytes (bucket.budget now) ≤ bucket.budget now := Nat.min_le_right _ _
  have hleft : bucket.budget now - packet.bytes = bucket.budget now - min packet.bytes (bucket.budget now) := by
    omega
  have hgain : ((bucket.bytesPerSec * (later - now) / 1000000000 : Nat) : Rat) ≤
      ratePerNano rateBps * (later - now) := by
    refine (Nat.cast_div_le).trans (le_of_eq ?_)
    rw [ratePerNano, hbytes, Nat.cast_mul, Nat.cast_sub hlater]
    push_cast
    ring
  obtain ⟨hle, hfilled⟩ := bucket.budget_onTransmit_le now packet.bytes later
  have htaken := h.take (ratePerNano_nonneg rateBps) (Nat.cast_nonneg _) (Nat.cast_le.mpr htake)
  refine htaken.refill (ratePerNano_nonneg rateBps) (Nat.cast_le.mpr hlater) (Nat.cast_nonneg _) (le_min ?_ ?_)
  · have hfilled : (_ : Rat) ≤ _ := Nat.cast_le.mpr hfilled
    rw [hleft, Nat.cast_add, Nat.cast_sub htake] at hfilled
    linarith
  · rw [← hburst]
    exact Nat.cast_le.mpr hle

namespace Sender

def bucket (rateBps mtu : Nat) (s : Sender) : RateBucket := (s.pacer.reconfigured mtu rateBps).rateBucket

structure Inv (rateBps mtu : Nat) (s : Sender) : Prop where
  configured : (s.pacer.reconfigured mtu rateBps).Configured mtu rateBps
  checked : s.cleared.isSome ∨ s.unfinished.isSome → s.pacer.Configured mtu rateBps
  metered : ∀ later : Nat, s.now ≤ later → Metered (burst mtu rateBps : Rat) (ratePerNano rateBps) later
    ((s.bucket rateBps mtu).budget later) (s.reports.map Report.withdrawal)
  cleared : s.cleared = some true → s.bytesToSend mtu ≤ (s.bucket rateBps mtu).budget s.now
  unfinished : ∀ packet, s.unfinished = some packet →
    Report.Valid mtu ⟨s.now, packet, (s.bucket rateBps mtu).budget s.now⟩
  reports : ∀ report ∈ s.reports, report.Valid mtu

theorem new_inv (rateBps mtu capacity firstMtu now : Nat) : (new capacity firstMtu now).Inv rateBps mtu := by
  obtain ⟨hconfigured, hfull⟩ :=
    @Pacer.reconfigured_of_window mtu rateBps (new capacity firstMtu now).pacer rfl
  refine ⟨hconfigured, by simp [new], fun later _ => ?_, nofun, nofun, nofun⟩
  have hbudget : ((new capacity firstMtu now).bucket rateBps mtu).budget later = burst mtu rateBps := by
    rw [bucket, RateBucket.budget, hfull]
    exact hconfigured.maxBurstSize
  rw [hbudget]
  exact .full (Nat.cast_nonneg _) (ratePerNano_nonneg rateBps) _

theorem check_inv {rateBps mtu : Nat} (hrate : 0 < rateBps) {s : Sender} (h : s.Inv rateBps mtu) {now : Nat}
    (hnow : s.now ≤ now) : (s.check rateBps mtu now).Inv rateBps mtu := by
  have hpacer : (s.check rateBps mtu now).pacer = s.pacer.reconfigured mtu rateBps :=
    Pacer.delay_fst hrate s.pacer _ now
  have hbucket : (s.check rateBps mtu now).bucket rateBps mtu = s.bucket rateBps mtu := by
    rw [bucket, hpacer, h.configured.reconfigured, bucket]
  constructor
  case configured =>
    rw [hpacer, h.configured.reconfigured]
    exact h.configured
  case checked =>
    intro _
    rw [hpacer]
    exact h.configured
  case metered =>
    intro later hlater
    rw [hbucket]
    exact h.metered later (hnow.trans hlater)
  case cleared =>
    intro hcleared
    rw [hbucket]
    unfold check at hcleared
    dsimp only at hcleared
    split at hcleared
    · rw [Pacer.delay_fst hrate] at hcleared
      exact of_decide_eq_true (Option.some.inj hcleared)
    · cases hcleared
  case unfinished =>
    intro packet hunfinished
    rw [hbucket]
    exact (h.unfinished packet hunfinished).later (RateBucket.budget_mono _ hnow) now
  case reports => exact h.reports

theorem start_inv {rateBps mtu : Nat} {s : Sender} (h : s.Inv rateBps mtu) {covered : Bool} {bytes : Nat}
    (hcleared : s.cleared = some covered) (hunfinished : s.unfinished = none) (hbytes : bytes ≤ mtu) :
    Inv rateBps mtu { s with cleared := none, unfinished := some ⟨bytes, covered⟩ } := by
  refine ⟨h.configured, fun _ => h.checked (by simp [hcleared]), h.metered, nofun, ?_, h.reports⟩
  rintro packet ⟨⟩
  refine ⟨hbytes, fun hcovered => ?_⟩
  have henough : mtu ≤ (s.bucket rateBps mtu).budget s.now := by
    have hall := h.cleared (hcleared.trans (congrArg some hcovered))
    simpa [bytesToSend, hunfinished] using hall
  exact hbytes.trans henough

theorem finish_inv {rateBps mtu : Nat} (hrate : 0 < rateBps) (hmtu : mtu < 2 ^ 16) {s : Sender}
    (h : s.Inv rateBps mtu) {now : Nat} (hnow : s.now ≤ now) {packet : Packet}
    (hunfinished : s.unfinished = some packet) : (s.finish now packet).Inv rateBps mtu := by
  have hconfigured := h.checked (by simp [hunfinished])
  have hbefore : s.bucket rateBps mtu = s.pacer.rateBucket := by rw [bucket, hconfigured.reconfigured]
  have hpacer : (s.finish now packet).pacer =
      { s.pacer with rateBucket := s.pacer.rateBucket.onTransmit now packet.bytes } := by
    have hpos := Pacer.divCeil_pos hrate
    rw [finish, Pacer.onTransmit, if_pos ⟨hconfigured.behavior, by rw [hconfigured.bytesPerSec]; exact hpos⟩]
  have hafter : (s.finish now packet).pacer.Configured mtu rateBps := by
    rw [hpacer]
    exact ⟨hconfigured.behavior, hconfigured.lastMtu, hconfigured.datagram, hconfigured.bytesPerSec⟩
  have hbucket : (s.finish now packet).bucket rateBps mtu = s.pacer.rateBucket.onTransmit now packet.bytes := by
    rw [bucket, hafter.reconfigured, hpacer]
  have hbudget := s.pacer.rateBucket.budget_mono hnow
  constructor
  case configured =>
    rw [hafter.reconfigured]
    exact hafter
  case checked => exact fun _ => hafter
  case metered =>
    intro later hlater
    have hmetered := h.metered now hnow
    rw [hbefore] at hmetered
    rw [hbucket]
    exact RateBucket.onTransmit_metered hconfigured.bytesPerSec hconfigured.maxBurstSize hmetered packet hlater
  case cleared =>
    intro hcleared
    have hall := h.cleared hcleared
    have hburst := s.pacer.rateBucket.budget_le_maxBurstSize now
    have hmax : u64Max = 2 ^ 64 - 1 := rfl
    rw [hbefore, bytesToSend, hunfinished, Option.map_some, Option.getD_some] at hall
    rw [hbucket, bytesToSend, finish, RateBucket.budget_onTransmit_self, Option.map_none, Option.getD_none]
    omega
  case unfinished => exact nofun
  case reports =>
    have hvalid := h.unfinished packet hunfinished
    rw [hbefore] at hvalid
    exact List.forall_mem_cons.mpr ⟨hvalid.later hbudget now, h.reports⟩

theorem step_inv {rateBps mtu : Nat} (hrate : 0 < rateBps) (hmtu : mtu < 2 ^ 16) {s after : Sender}
    {event : SenderEvent} (h : s.Inv rateBps mtu) (hstep : s.step rateBps mtu event = some after) :
    after.Inv rateBps mtu := by
  cases event with
  | check now =>
    simp only [step] at hstep
    split at hstep <;> cases hstep
    exact check_inv hrate h (by omega)
  | start bytes =>
    simp only [step] at hstep
    split at hstep
    · next hcleared hunfinished =>
      split at hstep <;> cases hstep
      exact start_inv h hcleared hunfinished (by assumption)
    · cases hstep
  | finish now =>
    simp only [step] at hstep
    split at hstep
    · next hunfinished =>
      split at hstep <;> cases hstep
      exact finish_inv hrate hmtu h (by omega) hunfinished
    · cases hstep

theorem run_inv {rateBps mtu : Nat} (hrate : 0 < rateBps) (hmtu : mtu < 2 ^ 16) {capacity firstMtu start : Nat}
    {events : List SenderEvent} {s : Sender}
    (hrun : run (step rateBps mtu) (new capacity firstMtu start) events = some s) : s.Inv rateBps mtu :=
  run_induction (fun _ _ _ h hstep => step_inv hrate hmtu h hstep) (new_inv rateBps mtu capacity firstMtu start) hrun

end Sender

/-- What is reported beyond what is taken from the bucket: at most a full packet for each
that was not covered. -/
theorem reportedBetween_le {mtu : Nat} {reports : List Report} (hvalid : ∀ report ∈ reports, report.Valid mtu)
    (t₀ t₁ : Nat) : reportedBetween t₀ t₁ reports ≤
      ((reportsBetween t₀ t₁ reports).map Report.taken).sum + uncoveredBetween t₀ t₁ reports * mtu := by
  have hwindow : ∀ report ∈ reportsBetween t₀ t₁ reports, report.Valid mtu := fun report hmem =>
    hvalid report (List.mem_of_mem_filter hmem)
  unfold reportedBetween uncoveredBetween
  generalize reportsBetween t₀ t₁ reports = window at hwindow ⊢
  induction window with
  | nil => exact Nat.zero_le _
  | cons report window ih =>
    obtain ⟨⟨hle, hcovered⟩, hrest⟩ := List.forall_mem_cons.mp hwindow
    have ih := ih hrest
    rw [List.map_cons, List.map_cons, List.sum_cons, List.sum_cons, List.countP_cons]
    have htaken : report.taken = min report.packet.bytes report.budget := rfl
    cases hcase : report.packet.covered with
    | true =>
      have hbudget := hcovered hcase
      simp only [Bool.not_true, Bool.false_eq_true, if_false, Nat.add_zero]
      omega
    | false =>
      simp only [Bool.not_false, if_true, Nat.add_mul, Nat.one_mul]
      omega

namespace Sender

/-- In every run and every interval the reported bytes are at most the burst size, what the
rate gives in that time and two packets, if at most two of them had been let start by a
check that did not find a budget for all of `bytes_to_send`. -/
theorem reported_le {rateBps mtu : Nat} (hrate : 0 < rateBps) (hmtu : mtu < 2 ^ 16) (capacity firstMtu start : Nat)
    (events : List SenderEvent) {s : Sender}
    (hrun : run (step rateBps mtu) (new capacity firstMtu start) events = some s) {t₀ t₁ : Nat} (hle : t₀ ≤ t₁)
    (hcovered : uncoveredBetween t₀ t₁ s.reports ≤ 2) :
    (reportedBetween t₀ t₁ s.reports : Rat) ≤
      burst mtu rateBps + divCeil rateBps 8 * (((t₁ : Rat) - t₀) / 1000000000) + 2 * mtu := by
  have hinv := run_inv hrate hmtu hrun
  have hbetween := (hinv.metered s.now (Nat.le_refl _)).between t₀ t₁ (Nat.cast_le.mpr hle)
  rw [show Report.withdrawal = fun report => ⟨report.time, report.taken⟩ from rfl, takenBetween_natCast,
    ratePerNano] at hbetween
  have hreported := reportedBetween_le hinv.reports t₀ t₁
  have htwo := Nat.mul_le_mul_right mtu hcovered
  have hsum : (reportedBetween t₀ t₁ s.reports : Rat) ≤
      (((reportsBetween t₀ t₁ s.reports).map Report.taken).sum : Nat) + 2 * mtu := by
    exact_mod_cast hreported.trans (Nat.add_le_add_left htwo _)
  calc (reportedBetween t₀ t₁ s.reports : Rat)
      ≤ (((reportsBetween t₀ t₁ s.reports).map Report.taken).sum : Nat) + 2 * mtu := hsum
    _ ≤ burst mtu rateBps + (divCeil rateBps 8 : Nat) / 1000000000 * (t₁ - t₀) + 2 * mtu := by
      exact add_le_add_left hbetween _
    _ = burst mtu rateBps + divCeil rateBps 8 * (((t₁ : Rat) - t₀) / 1000000000) + 2 * mtu := by ring

def batch (mtu now more : Nat) : List SenderEvent :=
  [.check now, .start mtu] ++ (List.replicate more [.check now, .finish now, .start mtu]).flatten ++
    [.check now, .finish now]

theorem isSome_batch : (run (step 12000 1500) (new 0 1500 0) (batch 1500 0 10)).isSome := by decide +kernel

theorem reported_le_batch :
    ∃ s, run (step 12000 1500) (new 0 1500 0) (batch 1500 0 10) = some s ∧
      reportedBetween 0 0 s.reports = 16500 ∧ uncoveredBetween 0 0 s.reports = 1 ∧
      (reportedBetween 0 0 s.reports : Rat) ≤
        burst 1500 12000 + divCeil 12000 8 * (((0 : Nat) - (0 : Nat)) / 1000000000) + 2 * (1500 : Nat) := by
  have hrun := (Option.some_get isSome_batch).symm
  exact ⟨_, hrun, by decide +kernel, by decide +kernel,
    reported_le (by decide) (by decide) 0 1500 0 _ hrun (Nat.le_refl 0) (by decide +kernel)⟩

/-- At 1500 bytes a second each batch of two packets after a second is one packet more than
the rate gives. -/
theorem batches_exceed_rate :
    (run (step 12000 1500) (new 0 1500 0)
        (batch 1500 0 10 ++ batch 1500 1000000000 1 ++ batch 1500 2000000000 1)).map
        (fun s => reportedBetween 0 2000000000 s.reports) = some 22500 ∧
      burst 1500 12000 + divCeil 12000 8 * (2000000000 - 0) / 1000000000 + 2 * 1500 = 21000 := by
  decide +kernel

end Sender
end Hysteria.Quinn
