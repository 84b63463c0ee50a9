import Mathlib.Algebra.Order.Ring.Unbundled.Rat
import Mathlib.Tactic.Common

/-! The bandwidth limiter of `limit.rs`, a token bucket that all sends of a connection
share. Tokens are rational numbers here; the source keeps a 64-bit float and rounds. The
time since the last call comes in nanoseconds. -/
namespace Hysteria.Core

/-- `debited` is not in the source: the total that was ever subtracted from `tokens`. -/
structure BandwidthLimiter where
  rateBytesPerSec : Nat
  burstBytes : Nat
  tokens : Rat
  debited : Nat

inductive LimitDecision where
  | ready (granted : Nat)
  | wait (seconds : Rat)
deriving DecidableEq

def minBurstBytes : Nat := 10 * 1500
def maxWriteChunk : Nat := 64 * 1024

def LimitDecision.granted : LimitDecision → Nat
  | .ready granted => granted
  | .wait _ => 0

namespace BandwidthLimiter

def new (rateBytesPerSec : Nat) : BandwidthLimiter :=
  let burstBytes := max (rateBytesPerSec / 250) minBurstBytes
  { rateBytesPerSec, burstBytes, tokens := burstBytes, debited := 0 }

def refill (limiter : BandwidthLimiter) (elapsed : Nat) : BandwidthLimiter :=
  let replenished : Rat := limiter.rateBytesPerSec * (elapsed / 1000000000)
  { limiter with tokens := min (limiter.tokens + replenished) limiter.burstBytes }

def waitDuration (limiter : BandwidthLimiter) (missingBytes : Rat) : Rat :=
  max missingBytes 1 / (max limiter.rateBytesPerSec 1 : Nat)

def debit (limiter : BandwidthLimiter) (granted : Nat) : BandwidthLimiter :=
  { limiter with tokens := limiter.tokens - granted, debited := limiter.debited + granted }

def takeStreamBudget (limiter : BandwidthLimiter) (elapsed requested : Nat) :
    BandwidthLimiter × LimitDecision :=
  if requested = 0 then (limiter, .ready 0)
  else
    let limiter := limiter.refill elapsed
    if limiter.tokens ≥ 1 then
      let available := (max limiter.tokens.floor 1).toNat
      let granted := min (min requested available) maxWriteChunk
      (limiter.debit granted, .ready granted)
    else (limiter, .wait (limiter.waitDuration (1 - limiter.tokens)))

/-- One turn of the loop of `wait_for`. -/
def waitFor (limiter : BandwidthLimiter) (elapsed requested : Nat) :
    BandwidthLimiter × LimitDecision :=
  if requested = 0 then (limiter, .ready 0)
  else
    let limiter := limiter.refill elapsed
    if limiter.tokens ≥ requested then (limiter.debit requested, .ready requested)
    else (limiter, .wait (limiter.waitDuration (requested - limiter.tokens)))

theorem takeStreamBudget_debited (limiter : BandwidthLimiter) (elapsed requested : Nat) :
    (limiter.takeStreamBudget elapsed requested).1.debited =
      limiter.debited + (limiter.takeStreamBudget elapsed requested).2.granted := by
  unfold takeStreamBudget
  split
  · rfl
  · dsimp only
    split
    · rfl
    · rfl

theorem waitFor_debited (limiter : BandwidthLimiter) (elapsed requested : Nat) :
    (limiter.waitFor elapsed requested).1.debited =
      limiter.debited + (limiter.waitFor elapsed requested).2.granted := by
  unfold waitFor
  split
  · rfl
  · dsimp only
    split
    · rfl
    · rfl

theorem waitFor_granted {limiter : BandwidthLimiter} {elapsed requested granted : Nat}
    (h : (limiter.waitFor elapsed requested).2 = .ready granted) : granted = requested := by
  unfold waitFor at h
  split at h
  · next hzero =>
    cases h
    exact hzero.symm
  · dsimp only at h
    split at h <;> cases h
    rfl

end BandwidthLimiter
end Hysteria.Core
