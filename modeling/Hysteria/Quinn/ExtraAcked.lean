import Hysteria.Lib.WindowedMax
import Mathlib.Order.Nat

/-! The largest aggregation of acknowledgements over the last rounds, `ExtraAckedFilter` of
`bbr/bw_estimation.rs`. Times are in nanoseconds. -/
namespace Hysteria.Quinn
open Lib

def defaultAckHeightWindow : Nat := 10

structure ExtraAckedEvent where
  extraAcked : Nat := 0
  bytesAcked : Nat := 0
  timeDelta : Nat := 0
  round : Nat := 0
deriving DecidableEq, Repr

structure ExtraAckedFilter where
  windowLength : Nat := defaultAckHeightWindow
  estimates : Top3 ExtraAckedEvent := .fill {}
deriving DecidableEq, Repr

namespace ExtraAckedFilter

def getBest (filter : ExtraAckedFilter) : ExtraAckedEvent := filter.estimates.first

def getSecondBest (filter : ExtraAckedFilter) : ExtraAckedEvent := filter.estimates.second

def getThirdBest (filter : ExtraAckedFilter) : ExtraAckedEvent := filter.estimates.third

def reset (filter : ExtraAckedFilter) (sample : ExtraAckedEvent) (round : Nat) : ExtraAckedFilter :=
  { filter with estimates := .fill { sample with round } }

def update (filter : ExtraAckedFilter) (sample : ExtraAckedEvent) (round : Nat) : ExtraAckedFilter :=
  let sample := { sample with round }
  let estimates := filter.estimates
  if estimates.first.extraAcked = 0 ∨ sample.extraAcked ≥ estimates.first.extraAcked ∨
      round - estimates.third.round > filter.windowLength then filter.reset sample round
  else
    let estimates :=
      if sample.extraAcked ≥ estimates.second.extraAcked then { estimates with second := sample, third := sample }
      else if sample.extraAcked ≥ estimates.third.extraAcked then { estimates with third := sample }
      else estimates
    if round - estimates.first.round > filter.windowLength then
      let estimates : Top3 ExtraAckedEvent := ⟨estimates.second, estimates.third, sample⟩
      if round - estimates.first.round > filter.windowLength then
        { filter with estimates := { estimates with first := estimates.second, second := estimates.third } }
      else { filter with estimates }
    else if estimates.second.extraAcked = estimates.first.extraAcked ∧
        round - estimates.second.round > filter.windowLength / 4 then
      { filter with estimates := { estimates with second := sample, third := sample } }
    else if estimates.third.extraAcked = estimates.second.extraAcked ∧
        round - estimates.third.round > filter.windowLength / 2 then
      { filter with estimates := { estimates with third := sample } }
    else { filter with estimates }

/-- The sample of a call, with the round that `update` writes into it. -/
def stamped (call : ExtraAckedEvent × Nat) : ExtraAckedEvent := { call.1 with round := call.2 }

def updates (filter : ExtraAckedFilter) (calls : List (ExtraAckedEvent × Nat)) : ExtraAckedFilter :=
  calls.foldl (fun filter call => filter.update call.1 call.2) filter

/-- Runners-up of the same value as the one before are given up after a quarter and a half of the window. -/
def windowedMax (windowLength : Nat) : WindowedMax ExtraAckedEvent Nat where
  value event := event.extraAcked
  round event := event.round
  window := windowLength
  unset := 0
  secondIsStale top sample :=
    top.second.extraAcked = top.first.extraAcked ∧ sample.round - top.second.round > windowLength / 4
  thirdIsStale top sample :=
    top.third.extraAcked = top.second.extraAcked ∧ sample.round - top.third.round > windowLength / 2

theorem update_eq (filter : ExtraAckedFilter) (sample : ExtraAckedEvent) (round : Nat) :
    filter.update sample round =
      { filter with
        estimates := (windowedMax filter.windowLength).update filter.estimates { sample with round } } := by
  simp +instances only [update, WindowedMax.update, WindowedMax.offer, WindowedMax.age, WindowedMax.retire,
    WindowedMax.Expired, windowedMax, reset, decide_eq_true_eq, ge_iff_le, gt_iff_lt]
  split_ifs <;> rfl

@[simp] theorem windowLength_update (filter : ExtraAckedFilter) (sample : ExtraAckedEvent) (round : Nat) :
    (filter.update sample round).windowLength = filter.windowLength := by rw [update_eq]

theorem updates_eq (filter : ExtraAckedFilter) (calls : List (ExtraAckedEvent × Nat)) :
    filter.updates calls =
      { filter with
        estimates := (calls.map stamped).foldl (windowedMax filter.windowLength).update filter.estimates } := by
  induction calls generalizing filter with
  | nil => rfl
  | cons call calls ih =>
    rw [updates, List.foldl_cons, ← updates, ih, update_eq]
    rfl

@[simp] theorem windowLength_updates (filter : ExtraAckedFilter) (calls : List (ExtraAckedEvent × Nat)) :
    (filter.updates calls).windowLength = filter.windowLength := by rw [updates_eq]

theorem tracks_updates {filter : ExtraAckedFilter} (hunset : filter.getBest.extraAcked = 0)
    (calls : List (ExtraAckedEvent × Nat)) (call : ExtraAckedEvent × Nat)
    (hrounds : (calls ++ [call]).Pairwise fun earlier later => earlier.2 ≤ later.2) :
    (windowedMax filter.windowLength).Tracks ((calls ++ [call]).map stamped) (stamped call)
      (filter.updates (calls ++ [call])).estimates := by
  rw [updates_eq, List.map_append]
  apply WindowedMax.tracks_foldl_update hunset
  rw [← List.map_singleton, ← List.map_append]
  exact List.pairwise_map.mpr hrounds

/-- After each of any updates in the order of their rounds the estimates stand in order, and the best of
them is no smaller than the newest sample and a sample of the window itself. -/
theorem best_of_window (calls : List (ExtraAckedEvent × Nat)) (sample : ExtraAckedEvent) (round : Nat)
    (hrounds : (calls ++ [(sample, round)]).Pairwise fun earlier later => earlier.2 ≤ later.2) :
    let filter := ({} : ExtraAckedFilter).updates (calls ++ [(sample, round)])
    filter.getSecondBest.extraAcked ≤ filter.getBest.extraAcked ∧
    filter.getThirdBest.extraAcked ≤ filter.getSecondBest.extraAcked ∧
    filter.getBest.round ≤ filter.getSecondBest.round ∧
    filter.getSecondBest.round ≤ filter.getThirdBest.round ∧
    sample.extraAcked ≤ filter.getBest.extraAcked ∧
    ∃ call ∈ calls ++ [(sample, round)], filter.getBest = { call.1 with round := call.2 } ∧
      call.2 ≤ round ∧ round ≤ call.2 + filter.windowLength := by
  intro filter
  have h := @tracks_updates {} rfl calls (sample, round) hrounds
  have hnewest := h.first_sample
  obtain ⟨call, hcall, hbest⟩ := List.mem_map.mp h.first_leads.mem
  have hround : filter.getBest.round = call.2 := congrArg ExtraAckedEvent.round hbest.symm
  refine ⟨h.first_second.value_le, h.second_third.value_le, h.first_second.round_le, h.second_third.round_le,
    hnewest.value_le, call, hcall, hbest.symm, hround ▸ hnewest.round_le, ?_⟩
  rw [← hround, windowLength_updates]
  exact Nat.sub_le_iff_le_add'.mp (Nat.le_of_not_lt h.first_recent)

theorem best_of_window_after_expiry :
    (({} : ExtraAckedFilter).updates ([({ extraAcked := 900 }, 1), ({ extraAcked := 500 }, 6)] ++
      [({ extraAcked := 200 }, 12)])).getBest = { extraAcked := 500, round := 6 } ∧
    200 ≤ (({} : ExtraAckedFilter).updates ([({ extraAcked := 900 }, 1), ({ extraAcked := 500 }, 6)] ++
      [({ extraAcked := 200 }, 12)])).getBest.extraAcked :=
  ⟨by decide, (best_of_window [({ extraAcked := 900 }, 1), ({ extraAcked := 500 }, 6)] { extraAcked := 200 } 12
    (by decide)).2.2.2.2.1⟩

end ExtraAckedFilter

end Hysteria.Quinn
