import Hysteria.Core.Frag
import Hysteria.Core.Limiter
import Hysteria.Lib.TokenBucket
import Hysteria.Lib.Transition
import Mathlib.Tactic.Ring

/-! Tasks that share a limiter. Each call is a turn under the lock, which reads the clock;
a call that has to wait sleeps and takes its next turn when it is awake again. Instants are
in nanoseconds. -/
namespace Hysteria.Core
open Lib

inductive LimiterCall where
  | takeStreamBudget (requested : Nat)
  | waitForChunk (requested : Nat)
  | waitFor (requested : Nat)
deriving DecidableEq, Repr

namespace LimiterCall

def requested : LimiterCall → Nat
  | .takeStreamBudget requested | .waitForChunk requested | .waitFor requested => requested

def turn (limiter : BandwidthLimiter) (elapsed : Nat) : LimiterCall → BandwidthLimiter × LimitDecision
  | .takeStreamBudget requested | .waitForChunk requested => limiter.takeStreamBudget elapsed requested
  | .waitFor requested => limiter.waitFor elapsed requested

/-- A grant that may be smaller than what was asked for. -/
def partialGrant : LimiterCall → Bool
  | .takeStreamBudget _ | .waitForChunk _ => true
  | .waitFor _ => false

end LimiterCall

inductive Caller where
  | idle
  | sleeping (call : LimiterCall) (wake : Rat)
deriving DecidableEq

namespace Caller

def mayTurn (call : LimiterCall) (now : Nat) : Caller → Bool
  | .idle => true
  | .sleeping sleeper wake => call = sleeper && wake ≤ now

/-- `take_stream_budget` hands the decision to its caller; the other two loop. -/
def after (call : LimiterCall) (now : Nat) : LimitDecision → Caller
  | .ready _ => .idle
  | .wait seconds =>
    match call with
    | .takeStreamBudget _ => .idle
    | .waitForChunk _ | .waitFor _ => .sleeping call (now + seconds * 1000000000)

end Caller

structure Grant where
  time : Nat
  call : LimiterCall
  granted : Nat
deriving DecidableEq, Repr

/-- `grants` is what was granted so far, latest first. -/
structure SharedLimiter where
  limiter : BandwidthLimiter
  lastRefill : Nat
  callers : List Caller
  grants : List Grant

structure Turn where
  caller : Nat
  call : LimiterCall
  now : Nat
deriving DecidableEq, Repr

namespace SharedLimiter

def new (rateBytesPerSec now callers : Nat) : SharedLimiter where
  limiter := .new rateBytesPerSec
  lastRefill := now
  callers := List.replicate callers .idle
  grants := []

/-- A request for nothing returns before the lock is taken. -/
def step (s : SharedLimiter) (turn : Turn) : Option SharedLimiter :=
  match s.callers[turn.caller]? with
  | some caller =>
    if !caller.mayTurn turn.call turn.now then none
    else if turn.call.requested = 0 then some s
    else if turn.now < s.lastRefill then none
    else
      let taken := turn.call.turn s.limiter (turn.now - s.lastRefill)
      some {
        limiter := taken.1
        lastRefill := turn.now
        callers := s.callers.set turn.caller (.after turn.call turn.now taken.2)
        grants :=
          match taken.2 with
          | .ready granted => ⟨turn.now, turn.call, granted⟩ :: s.grants
          | .wait _ => s.grants }
  | none => none

end SharedLimiter

def grantedBetween (t₀ t₁ : Nat) (grants : List Grant) : Nat :=
  ((grants.filter fun grant => t₀ ≤ grant.time ∧ grant.time ≤ t₁).map Grant.granted).sum

def Grant.Bounded (grant : Grant) : Prop :=
  grant.call.partialGrant = true →
    1 ≤ grant.granted ∧ grant.granted ≤ min grant.call.requested maxWriteChunk

inductive LimiterCall.Turned (limiter : BandwidthLimiter) (elapsed : Nat) (call : LimiterCall) :
    BandwidthLimiter × LimitDecision → Prop where
  | granted {granted : Nat} (hle : granted ≤ (limiter.refill elapsed).tokens)
      (hbounded : ∀ now, Grant.Bounded ⟨now, call, granted⟩) :
    Turned limiter elapsed call ((limiter.refill elapsed).debit granted, .ready granted)
  | waits (seconds : Rat) : Turned limiter elapsed call (limiter.refill elapsed, .wait seconds)

theorem available_le {tokens : Rat} (h : tokens ≥ 1) :
    1 ≤ (max tokens.floor 1).toNat ∧ ((max tokens.floor 1).toNat : Rat) ≤ tokens := by
  have hfloor : 1 ≤ tokens.floor := Rat.le_floor_iff.mpr (by simpa using h)
  have hnat : ((max tokens.floor 1).toNat : Int) = tokens.floor := by omega
  have hcast : ((max tokens.floor 1).toNat : Rat) = tokens.floor := by exact_mod_cast hnat
  refine ⟨by omega, ?_⟩
  rw [hcast]
  exact Rat.floor_le tokens

theorem takeStreamBudget_turned (limiter : BandwidthLimiter) (elapsed : Nat) {call : LimiterCall}
    (hpos : call.requested ≠ 0) :
    call.Turned limiter elapsed (limiter.takeStreamBudget elapsed call.requested) := by
  rw [BandwidthLimiter.takeStreamBudget, if_neg hpos]
  dsimp only
  split
  · next hone =>
    obtain ⟨havailable, hle⟩ := available_le hone
    refine .granted ((Nat.cast_le.mpr ?_).trans hle) fun now _ => ?_
    · exact (Nat.min_le_left _ _).trans (Nat.min_le_right _ _)
    · have hchunk : maxWriteChunk = 65536 := rfl
      dsimp only
      omega
  · exact .waits _

theorem LimiterCall.turn_turned (limiter : BandwidthLimiter) (elapsed : Nat) {call : LimiterCall}
    (hpos : call.requested ≠ 0) : call.Turned limiter elapsed (call.turn limiter elapsed) := by
  cases call with
  | takeStreamBudget | waitForChunk => exact takeStreamBudget_turned limiter elapsed hpos
  | waitFor requested =>
    have hne : requested ≠ 0 := hpos
    rw [turn, BandwidthLimiter.waitFor, if_neg hne]
    dsimp only
    split
    · next henough => exact .granted henough fun _ => nofun
    · exact .waits _

def BandwidthLimiter.rate (limiter : BandwidthLimiter) : Rat := limiter.rateBytesPerSec / 1000000000

def Grant.withdrawal (grant : Grant) : Withdrawal Rat := ⟨grant.time, grant.granted⟩

namespace SharedLimiter

structure Inv (rateBytesPerSec : Nat) (s : SharedLimiter) : Prop where
  limits : s.limiter.rateBytesPerSec = rateBytesPerSec ∧
    s.limiter.burstBytes = (BandwidthLimiter.new rateBytesPerSec).burstBytes
  metered : Metered (s.limiter.burstBytes : Rat) s.limiter.rate s.lastRefill s.limiter.tokens
    (s.grants.map Grant.withdrawal)
  bounded : ∀ grant ∈ s.grants, grant.Bounded

theorem rate_nonneg (limiter : BandwidthLimiter) : 0 ≤ limiter.rate := by
  unfold BandwidthLimiter.rate
  positivity

theorem new_inv (rateBytesPerSec now callers : Nat) :
    (new rateBytesPerSec now callers).Inv rateBytesPerSec where
  limits := ⟨rfl, rfl⟩
  metered := .full (Nat.cast_nonneg _) (rate_nonneg _) _
  bounded := nofun

theorem refill_metered {limiter : BandwidthLimiter} {lastRefill now : Nat} {log : List (Withdrawal Rat)}
    (h : Metered (limiter.burstBytes : Rat) limiter.rate lastRefill limiter.tokens log)
    (hnow : lastRefill ≤ now) :
    Metered (limiter.burstBytes : Rat) limiter.rate now (limiter.refill (now - lastRefill)).tokens log := by
  have hlater : (lastRefill : Rat) ≤ now := Nat.cast_le.mpr hnow
  have hfilled : (limiter.refill (now - lastRefill)).tokens =
      min (limiter.tokens + limiter.rate * (now - lastRefill)) limiter.burstBytes := by
    rw [BandwidthLimiter.refill, BandwidthLimiter.rate, Nat.cast_sub hnow]
    dsimp only
    congr 2
    ring
  have hgain : 0 ≤ limiter.rate * ((now : Rat) - lastRefill) :=
    mul_nonneg (rate_nonneg limiter) (sub_nonneg.mpr hlater)
  rw [hfilled]
  exact h.refill (rate_nonneg limiter) hlater
    (le_min (add_nonneg h.nonneg hgain) (Nat.cast_nonneg _)) le_rfl

theorem inv_of_turned {rateBytesPerSec : Nat} {s : SharedLimiter} {call : LimiterCall} {now : Nat}
    {taken : BandwidthLimiter × LimitDecision} (h : s.Inv rateBytesPerSec) (hnow : s.lastRefill ≤ now)
    (hturned : call.Turned s.limiter (now - s.lastRefill) taken) (callers : List Caller) :
    Inv rateBytesPerSec {
      limiter := taken.1
      lastRefill := now
      callers
      grants :=
        match taken.2 with
        | .ready granted => ⟨now, call, granted⟩ :: s.grants
        | .wait _ => s.grants } := by
  have hrefilled := refill_metered h.metered hnow
  cases hturned with
  | @granted granted hle hbounded =>
    refine ⟨h.limits, hrefilled.take (rate_nonneg _) (Nat.cast_nonneg granted) hle, ?_⟩
    exact List.forall_mem_cons.mpr ⟨hbounded now, h.bounded⟩
  | waits seconds => exact ⟨h.limits, hrefilled, h.bounded⟩

theorem step_inv {rateBytesPerSec : Nat} {s after : SharedLimiter} {turn : Turn}
    (h : s.Inv rateBytesPerSec) (hstep : s.step turn = some after) : after.Inv rateBytesPerSec := by
  unfold step at hstep
  split at hstep
  · split_ifs at hstep with hmay hzero hearly <;> cases hstep
    · exact h
    · exact inv_of_turned h (Nat.le_of_not_lt hearly) (LimiterCall.turn_turned _ _ hzero) _
  · cases hstep

theorem run_inv {rateBytesPerSec start callers : Nat} {turns : List Turn} {s : SharedLimiter}
    (hrun : run step (new rateBytesPerSec start callers) turns = some s) : s.Inv rateBytesPerSec :=
  run_induction (fun _ _ _ h hstep => step_inv h hstep) (new_inv rateBytesPerSec start callers) hrun

/-- In every run the balance stays between nothing and the burst size, every grant to a
stream has its bounds, and what is granted in an interval is at most the burst size and
what the rate gives in that time. -/
theorem limiter_bounds (rateBytesPerSec start callers : Nat) (turns : List Turn) {s : SharedLimiter}
    (hrun : run step (new rateBytesPerSec start callers) turns = some s) :
    0 ≤ s.limiter.tokens ∧ s.limiter.tokens ≤ (BandwidthLimiter.new rateBytesPerSec).burstBytes ∧
      (∀ grant ∈ s.grants, grant.call.partialGrant = true →
        1 ≤ grant.granted ∧ grant.granted ≤ min grant.call.requested 65536) ∧
      ∀ t₀ t₁ : Nat, t₀ ≤ t₁ → (grantedBetween t₀ t₁ s.grants : Rat) ≤
        (BandwidthLimiter.new rateBytesPerSec).burstBytes +
          rateBytesPerSec * (((t₁ : Rat) - t₀) / 1000000000) := by
  have hinv := run_inv hrun
  rw [← hinv.limits.2]
  refine ⟨hinv.metered.nonneg, hinv.metered.le_burst, hinv.bounded, ?_⟩
  intro t₀ t₁ hle
  have hbetween := hinv.metered.between t₀ t₁ (Nat.cast_le.mpr hle)
  rw [show Grant.withdrawal = fun grant => ⟨grant.time, grant.granted⟩ from rfl, takenBetween_natCast,
    BandwidthLimiter.rate, hinv.limits.1] at hbetween
  calc (grantedBetween t₀ t₁ s.grants : Rat)
      ≤ s.limiter.burstBytes + (rateBytesPerSec : Rat) / 1000000000 * (t₁ - t₀) := hbetween
    _ = s.limiter.burstBytes + rateBytesPerSec * (((t₁ : Rat) - t₀) / 1000000000) := by ring

def contended : List Turn :=
  [⟨0, .waitFor 15000, 0⟩, ⟨1, .waitForChunk 100000, 0⟩, ⟨1, .waitForChunk 100000, 2500000⟩]

theorem isSome_contended : (run step (new 1000 0 2) contended).isSome := by decide +kernel

theorem limiter_bounds_contended :
    ∃ s, run step (new 1000 0 2) contended = some s ∧ grantedBetween 0 2500000 s.grants = 15002 ∧
      (grantedBetween 0 2500000 s.grants : Rat) ≤
        (BandwidthLimiter.new 1000).burstBytes + (1000 : Nat) * (((2500000 : Nat) - (0 : Nat)) / 1000000000) := by
  have hrun := (Option.some_get isSome_contended).symm
  exact ⟨_, hrun, by decide +kernel,
    (limiter_bounds 1000 0 2 contended hrun).2.2.2 0 2500000 (Nat.zero_le _)⟩

end SharedLimiter

namespace BandwidthLimiter

/-- The rounds of `wait_for`, each so many nanoseconds after the one before: the limiter
after it, and what it decides. -/
def rounds (limiter : BandwidthLimiter) (requested : Nat) (elapsed : Nat → Nat) :
    Nat → BandwidthLimiter × LimitDecision
  | 0 => limiter.waitFor (elapsed 0) requested
  | n + 1 => (rounds limiter requested elapsed n).1.waitFor (elapsed (n + 1)) requested

def Sleeps (limiter : BandwidthLimiter) (requested : Nat) (elapsed : Nat → Nat) : Prop :=
  ∀ n seconds, (limiter.rounds requested elapsed n).2 = .wait seconds →
    seconds * 1000000000 ≤ elapsed (n + 1)

def Returns (limiter : BandwidthLimiter) (requested : Nat) (elapsed : Nat → Nat) : Prop :=
  ∃ n, (limiter.rounds requested elapsed n).2 = .ready requested

structure Within (limiter : BandwidthLimiter) : Prop where
  nonneg : 0 ≤ limiter.tokens
  le_burst : limiter.tokens ≤ limiter.burstBytes

theorem Within.refill {limiter : BandwidthLimiter} (h : limiter.Within) (elapsed : Nat) :
    (limiter.refill elapsed).Within where
  nonneg := by
    have hgain : (0 : Rat) ≤ limiter.rateBytesPerSec * (elapsed / 1000000000) := by positivity
    exact le_min (add_nonneg h.nonneg hgain) (Nat.cast_nonneg _)
  le_burst := min_le_right _ _

theorem waitFor_of_le {limiter : BandwidthLimiter} {elapsed requested : Nat}
    (h : requested ≤ (limiter.refill elapsed).tokens) :
    (limiter.waitFor elapsed requested).2 = .ready requested := by
  unfold waitFor
  split
  · next hzero => rw [hzero]
  · rw [if_pos h]

theorem waitFor_of_lt {limiter : BandwidthLimiter} {elapsed requested : Nat} (hpos : requested ≠ 0)
    (h : (limiter.refill elapsed).tokens < requested) :
    limiter.waitFor elapsed requested = (limiter.refill elapsed,
      .wait ((limiter.refill elapsed).waitDuration (requested - (limiter.refill elapsed).tokens))) := by
  rw [waitFor, if_neg hpos, if_neg (not_le.mpr h)]

theorem missing_le_of_slept {limiter : BandwidthLimiter} (hrate : 1 ≤ limiter.rateBytesPerSec)
    {missing : Rat} {elapsed : Nat} (h : limiter.waitDuration missing * 1000000000 ≤ elapsed) :
    missing ≤ limiter.rateBytesPerSec * (elapsed / 1000000000) := by
  have hpos : (0 : Rat) < limiter.rateBytesPerSec := by exact_mod_cast hrate
  rw [waitDuration, Nat.max_eq_left hrate, ← le_div_iff₀ (by norm_num), div_le_iff₀ hpos, mul_comm] at h
  exact (le_max_left _ _).trans h

theorem returns_of_le {limiter : BandwidthLimiter} {requested : Nat} {elapsed : Nat → Nat}
    (hrate : 1 ≤ limiter.rateBytesPerSec) (hle : requested ≤ limiter.burstBytes)
    (hsleeps : limiter.Sleeps requested elapsed) : limiter.Returns requested elapsed := by
  rcases Nat.eq_zero_or_pos requested with rfl | hpos
  · exact ⟨0, rfl⟩
  rcases le_or_gt (requested : Rat) (limiter.refill (elapsed 0)).tokens with henough | hshort
  · exact ⟨0, waitFor_of_le henough⟩
  have hround := waitFor_of_lt hpos.ne' hshort
  have hmissing := missing_le_of_slept hrate (hsleeps 0 _ (congrArg Prod.snd hround))
  refine ⟨1, ?_⟩
  rw [rounds, rounds, hround]
  apply waitFor_of_le
  apply le_min
  · exact sub_le_iff_le_add'.mp hmissing
  · exact_mod_cast hle

theorem Within.waitFor {limiter : BandwidthLimiter} (h : limiter.Within) (elapsed requested : Nat) :
    (limiter.waitFor elapsed requested).1.Within ∧
      (limiter.waitFor elapsed requested).1.burstBytes = limiter.burstBytes := by
  rw [BandwidthLimiter.waitFor]
  split
  · exact ⟨h, rfl⟩
  · have hfilled := h.refill elapsed
    dsimp only
    split
    · next henough =>
      exact ⟨⟨sub_nonneg.mpr henough, (sub_le_self _ (Nat.cast_nonneg _)).trans hfilled.le_burst⟩, rfl⟩
    · exact ⟨hfilled, rfl⟩

theorem exists_round {limiter : BandwidthLimiter} (h : limiter.Within) (requested : Nat)
    (elapsed : Nat → Nat) (n : Nat) :
    ∃ before : BandwidthLimiter, before.Within ∧ before.burstBytes = limiter.burstBytes ∧
      limiter.rounds requested elapsed n = before.waitFor (elapsed n) requested := by
  induction n with
  | zero => exact ⟨limiter, h, rfl, rfl⟩
  | succ n ih =>
    obtain ⟨before, hbefore, hburst, hround⟩ := ih
    obtain ⟨hafter, hsame⟩ := hbefore.waitFor (elapsed n) requested
    exact ⟨_, hafter, hsame.trans hburst, by rw [rounds, hround]⟩

theorem not_returns_of_lt {limiter : BandwidthLimiter} {requested : Nat} (h : limiter.Within)
    (hlt : limiter.burstBytes < requested) (elapsed : Nat → Nat) : ¬ limiter.Returns requested elapsed := by
  rintro ⟨n, hready⟩
  obtain ⟨before, hbefore, hburst, hround⟩ := exists_round h requested elapsed n
  have hshort : (before.refill (elapsed n)).tokens < requested := by
    refine (hbefore.refill _).le_burst.trans_lt ?_
    have hlt' : before.burstBytes < requested := by omega
    exact_mod_cast hlt'
  rw [hround, waitFor_of_lt (by omega) hshort] at hready
  cases hready

theorem sleeps_long {limiter : BandwidthLimiter} (h : limiter.Within) (requested : Nat) :
    limiter.Sleeps requested fun _ => requested * 1000000000 := by
  intro n seconds hwait
  obtain ⟨before, hbefore, -, hround⟩ := exists_round h requested (fun _ => requested * 1000000000) n
  rw [hround, waitFor] at hwait
  split at hwait
  · cases hwait
  · next hpos =>
    dsimp only at hwait
    split at hwait <;> cases hwait
    have hmissing : max ((requested : Rat) - (before.refill (requested * 1000000000)).tokens) 1 ≤ requested :=
      max_le (sub_le_self _ (hbefore.refill _).nonneg) (by exact_mod_cast Nat.pos_of_ne_zero hpos)
    have hrate : (1 : Rat) ≤ (max before.rateBytesPerSec 1 : Nat) := by
      exact_mod_cast Nat.le_max_right _ _
    push_cast
    apply mul_le_mul_of_nonneg_right _ (by norm_num)
    exact (div_le_self (zero_le_one.trans (le_max_right _ _)) hrate).trans hmissing

/-- From every balance the limiter can have, `wait_for` returns whatever the sleeps, as long
as they last as they should, exactly when the request is not larger than the burst size. -/
theorem waitFor_returns_iff {rateBytesPerSec : Nat} (hrate : 1 ≤ rateBytesPerSec) (start callers : Nat)
    (turns : List Turn) {s : SharedLimiter}
    (hrun : run SharedLimiter.step (.new rateBytesPerSec start callers) turns = some s)
    (requested : Nat) :
    (∀ elapsed, s.limiter.Sleeps requested elapsed → s.limiter.Returns requested elapsed) ↔
      requested ≤ max (rateBytesPerSec / 250) 15000 := by
  have hinv := SharedLimiter.run_inv hrun
  have hwithin : s.limiter.Within := ⟨hinv.metered.nonneg, hinv.metered.le_burst⟩
  have hburst : s.limiter.burstBytes = max (rateBytesPerSec / 250) 15000 := hinv.limits.2
  rw [← hburst]
  constructor
  · intro hreturns
    by_contra hlt
    have hlt := Nat.lt_of_not_le hlt
    exact not_returns_of_lt hwithin hlt _ (hreturns _ (sleeps_long hwithin requested))
  · intro hle elapsed hsleeps
    exact returns_of_le (by rw [hinv.limits.1]; exact hrate) hle hsleeps

theorem new_within (rateBytesPerSec : Nat) : (new rateBytesPerSec).Within :=
  ⟨Nat.cast_nonneg _, le_rfl⟩

theorem waitFor_returns_burst :
    ∃ elapsed, (new 1).Sleeps 15000 elapsed ∧ (new 1).Returns 15000 elapsed :=
  ⟨_, sleeps_long (new_within 1) 15000,
    (waitFor_returns_iff (Nat.le_refl 1) 0 0 [] rfl 15000).mpr (by decide) _
      (sleeps_long (new_within 1) 15000)⟩

/-- A message with the largest payload of a UDP datagram is never sent at a low rate. -/
theorem waitFor_never_returns :
    ∃ elapsed, (new 1).Sleeps largestMessage.size elapsed ∧
      ¬ (new 1).Returns largestMessage.size elapsed := by
  have hsize := largestMessage.size_eq
  have hlength : largestMessage.data.length = 65507 := List.length_replicate
  have hburst : (new 1).burstBytes = 15000 := by decide
  exact ⟨_, sleeps_long (new_within 1) _, not_returns_of_lt (new_within 1) (by omega) _⟩

end BandwidthLimiter
end Hysteria.Core
