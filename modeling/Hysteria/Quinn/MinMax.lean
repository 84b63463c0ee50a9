import Hysteria.Lib.Exec
import Hysteria.Lib.WindowedMax
import Mathlib.Order.Nat

/-! The largest bandwidth over the last rounds, `bbr/min_max.rs`. The window is what the environment
gives, or ten rounds. -/
namespace Hysteria.Quinn
open Lib

structure MinMaxSample where
  time : Nat := 0
  value : Nat := 0
deriving DecidableEq, Repr

structure MinMax where
  window : Nat := 10
  samples : Top3 MinMaxSample := .fill {}
deriving DecidableEq, Repr

namespace MinMax

def get (filter : MinMax) : Nat := filter.samples.first.value

def fill (filter : MinMax) (sample : MinMaxSample) : MinMax := { filter with samples := .fill sample }

def subwinUpdate (profile : Profile) (filter : MinMax) (sample : MinMaxSample) : Exec Empty MinMax := do
  let samples := filter.samples
  let dt ← subUsize profile sample.time samples.first.time
  if dt > filter.window then
    let samples : Top3 MinMaxSample := ⟨samples.second, samples.third, sample⟩
    let dt ← subUsize profile sample.time samples.first.time
    if dt > filter.window then return { filter with samples := ⟨samples.second, samples.third, sample⟩ }
    else return { filter with samples }
  else if samples.second.time = samples.first.time ∧ dt > filter.window / 4 then
    return { filter with samples := { samples with second := sample, third := sample } }
  else if samples.third.time = samples.second.time ∧ dt > filter.window / 2 then
    return { filter with samples := { samples with third := sample } }
  else return filter

/-- `sample.time - self.samples[2].time > self.window`, after two comparisons that make it unnecessary -/
def startsAfresh (profile : Profile) (filter : MinMax) (sample : MinMaxSample) : Exec Empty Bool :=
  if filter.samples.first.value = 0 ∨ sample.value ≥ filter.samples.first.value then .ok true
  else do
    let dt ← subUsize profile sample.time filter.samples.third.time
    return dt > filter.window

def updateMax (profile : Profile) (filter : MinMax) (currentRound measurement : Nat) : Exec Empty MinMax := do
  let sample : MinMaxSample := ⟨currentRound, measurement⟩
  let afresh ← filter.startsAfresh profile sample
  if afresh then return filter.fill sample
  else
    let samples := filter.samples
    let samples :=
      if sample.value ≥ samples.second.value then { samples with second := sample, third := sample }
      else if sample.value ≥ samples.third.value then { samples with third := sample }
      else samples
    { filter with samples }.subwinUpdate profile sample

/-- Runners-up of one round are given up after a quarter and a half of the window, counted from the best sample. -/
def windowedMax (window : Nat) : WindowedMax MinMaxSample Nat where
  value sample := sample.value
  round sample := sample.time
  window := window
  unset := 0
  secondIsStale top sample := top.second.time = top.first.time ∧ sample.time - top.first.time > window / 4
  thirdIsStale top sample := top.third.time = top.second.time ∧ sample.time - top.first.time > window / 2

variable (profile : Profile) {filter : MinMax} {sample : MinMaxSample}

theorem subwinUpdate_ok (hfirst : filter.samples.first.time ≤ sample.time)
    (hsecond : filter.samples.second.time ≤ sample.time) :
    filter.subwinUpdate profile sample =
      .ok { filter with samples := (windowedMax filter.window).age filter.samples sample } := by
  simp only [subwinUpdate, subUsize_ok profile hfirst, subUsize_ok profile hsecond, ok_bind, WindowedMax.age,
    WindowedMax.retire, WindowedMax.Expired, windowedMax, decide_eq_true_eq, gt_iff_lt]
  split_ifs <;> rfl

theorem startsAfresh_ok (hthird : filter.samples.third.time ≤ sample.time) :
    filter.startsAfresh profile sample =
      .ok (filter.samples.first.value = 0 ∨ filter.samples.first.value ≤ sample.value ∨
        filter.window < sample.time - filter.samples.third.time) := by
  rw [startsAfresh, subUsize_ok profile hthird, ok_bind]
  split_ifs with h
  · exact congrArg Except.ok (decide_eq_true (or_assoc.mp (.inl h))).symm
  · exact congrArg Except.ok (decide_eq_decide.mpr ((or_iff_right h).symm.trans or_assoc))

theorem updateMax_ok {history : List MinMaxSample} {last : MinMaxSample}
    (h : (windowedMax filter.window).Ranked history last filter.samples) (htime : last.time ≤ sample.time) :
    filter.updateMax profile sample.time sample.value =
      .ok { filter with samples := (windowedMax filter.window).update filter.samples sample } := by
  rw [updateMax, startsAfresh_ok profile (Nat.le_trans h.third_sample.round_le htime), ok_bind]
  by_cases hafresh : filter.samples.first.value = 0 ∨ filter.samples.first.value ≤ sample.value ∨
      filter.window < sample.time - filter.samples.third.time
  · have hupdate : (windowedMax filter.window).update filter.samples sample = .fill sample := if_pos hafresh
    rw [if_pos (decide_eq_true hafresh), hupdate]
    rfl
  · have hlt := Nat.lt_of_not_le fun hle => hafresh (.inr (.inl hle))
    have hoffered := h.offer htime hlt
    have hupdate : (windowedMax filter.window).update filter.samples sample = (windowedMax filter.window).age
        ((windowedMax filter.window).offer filter.samples sample) sample := if_neg hafresh
    rw [if_neg (mt of_decide_eq_true hafresh), hupdate]
    exact @subwinUpdate_ok profile ⟨filter.window, (windowedMax filter.window).offer filter.samples sample⟩ sample
      hoffered.first_sample.round_le (Nat.le_trans hoffered.second_third.round_le hoffered.third_sample.round_le)

def updates (filter : MinMax) (samples : List MinMaxSample) : Exec Empty MinMax :=
  samples.foldlM (fun filter sample => filter.updateMax profile sample.time sample.value) filter

theorem updates_ok {history samples : List MinMaxSample} {last : MinMaxSample}
    (h : (windowedMax filter.window).Ranked history last filter.samples)
    (htimes : (last :: samples).Pairwise fun earlier later => earlier.time ≤ later.time) :
    filter.updates profile samples =
      .ok { filter with samples := samples.foldl (windowedMax filter.window).update filter.samples } := by
  induction samples generalizing filter history last with
  | nil => rfl
  | cons sample samples ih =>
    obtain ⟨hlast, hrest⟩ := List.pairwise_cons.mp htimes
    have hsample := hlast sample List.mem_cons_self
    rw [updates, List.foldlM_cons, updateMax_ok profile h hsample, ok_bind, ← updates]
    exact ih (h.update hsample).toRanked hrest

/-- After any measurements in the order of their rounds the filter returns one of the window, no smaller than
any since. -/
theorem get_of_window (window : Nat) (samples : List MinMaxSample) (sample : MinMaxSample)
    (htimes : (samples ++ [sample]).Pairwise fun earlier later => earlier.time ≤ later.time) :
    ∃ filter before best since, updates profile { window } (samples ++ [sample]) = .ok filter ∧
      samples ++ [sample] = before ++ best :: since ∧ filter.get = best.value ∧
      (∀ later ∈ since, later.value ≤ best.value) ∧ sample.time ≤ best.time + window := by
  have hnew : (windowedMax window).Ranked ([] ++ [⟨0, 0⟩]) ⟨0, 0⟩ (.fill {}) := WindowedMax.ranked_fill [] _
  have hrun := @updates_ok profile { window } _ (samples ++ [sample]) _ hnew
    (List.pairwise_cons.mpr ⟨fun _ _ => Nat.zero_le _, htimes⟩)
  have htracks : (windowedMax window).Tracks (samples ++ [sample]) sample
      ((samples ++ [sample]).foldl (windowedMax window).update (.fill {})) :=
    WindowedMax.tracks_foldl_update rfl samples sample htimes
  obtain ⟨before, since, hsplit, hsince⟩ := htracks.first_leads
  exact ⟨_, before, _, since, hrun, hsplit, rfl, hsince,
    Nat.sub_le_iff_le_add'.mp (Nat.le_of_not_lt htracks.first_recent)⟩

end MinMax

end Hysteria.Quinn
