import Mathlib.Data.List.Basic
import Mathlib.Data.List.Induction
import Mathlib.Order.Lattice
import Mathlib.Tactic.Common

/-! The largest value of a stream over a window of rounds, in constant space: the best sample and two
later ones to take its place. Each of the three is the largest of all samples from its own on.

An implementation also gives up a runner-up that is old, so that the three do not all leave the window
at once. When it does so is left open here; nothing below rests on it. -/
namespace Hysteria.Lib

structure Top3 (α : Type u) where
  first : α
  second : α
  third : α
deriving DecidableEq, Repr

def Top3.fill (sample : α) : Top3 α := ⟨sample, sample, sample⟩

structure WindowedMax (α : Type u) (β : Type v) where
  value : α → β
  round : α → Nat
  window : Nat
  /-- The value of an estimate that is none. -/
  unset : β
  secondIsStale : Top3 α → α → Bool
  thirdIsStale : Top3 α → α → Bool

namespace WindowedMax
variable (filter : WindowedMax α β)

abbrev Expired (sample estimate : α) : Prop := filter.window < filter.round sample - filter.round estimate

theorem not_expired_self (sample : α) : ¬ filter.Expired sample sample := by
  rw [Expired, Nat.sub_self]
  exact Nat.not_lt_zero _

variable [LinearOrder β]

def offer (top : Top3 α) (sample : α) : Top3 α :=
  if filter.value top.second ≤ filter.value sample then ⟨top.first, sample, sample⟩
  else if filter.value top.third ≤ filter.value sample then ⟨top.first, top.second, sample⟩
  else top

def retire (top : Top3 α) (sample : α) : Top3 α :=
  if filter.Expired sample top.second then ⟨top.third, sample, sample⟩ else ⟨top.second, top.third, sample⟩

def age (top : Top3 α) (sample : α) : Top3 α :=
  if filter.Expired sample top.first then filter.retire top sample
  else if filter.secondIsStale top sample then ⟨top.first, sample, sample⟩
  else if filter.thirdIsStale top sample then ⟨top.first, top.second, sample⟩
  else top

def update (top : Top3 α) (sample : α) : Top3 α :=
  if filter.value top.first = filter.unset ∨ filter.value top.first ≤ filter.value sample ∨
      filter.Expired sample top.third then .fill sample
  else filter.age (filter.offer top sample) sample

structure Outranks (a b : α) : Prop where
  value_le : filter.value b ≤ filter.value a
  round_le : filter.round a ≤ filter.round b

/-- The sample was given, and none since was larger. -/
def Leads (history : List α) (sample : α) : Prop :=
  ∃ before since, history = before ++ sample :: since ∧ ∀ later ∈ since, filter.value later ≤ filter.value sample

/-- The estimates after some samples, of which the given one is the last. -/
structure Ranked (history : List α) (sample : α) (top : Top3 α) : Prop where
  first_second : filter.Outranks top.first top.second
  second_third : filter.Outranks top.second top.third
  third_sample : filter.Outranks top.third sample
  first_leads : filter.Leads history top.first
  second_leads : filter.Leads history top.second
  third_leads : filter.Leads history top.third
  sample_leads : filter.Leads history sample

/-- The same after an update, which also looks at the window. -/
structure Tracks (history : List α) (sample : α) (top : Top3 α) : Prop extends filter.Ranked history sample top where
  first_recent : ¬ filter.Expired sample top.first

theorem leads_append_self (history : List α) (sample : α) : filter.Leads (history ++ [sample]) sample :=
  ⟨history, [], rfl, fun _ hlater => (List.not_mem_nil hlater).elim⟩

variable {filter} {history : List α} {top : Top3 α} {sample last : α}

theorem Outranks.refl (sample : α) : filter.Outranks sample sample := ⟨le_refl _, Nat.le_refl _⟩

theorem Outranks.trans {a b c : α} (h : filter.Outranks a b) (h' : filter.Outranks b c) : filter.Outranks a c :=
  ⟨le_trans h'.value_le h.value_le, Nat.le_trans h.round_le h'.round_le⟩

theorem Leads.mem (h : filter.Leads history sample) : sample ∈ history := by
  obtain ⟨before, since, rfl, -⟩ := h
  exact List.mem_append_right _ List.mem_cons_self

theorem Leads.append {estimate : α} (h : filter.Leads history estimate)
    (hle : filter.value sample ≤ filter.value estimate) : filter.Leads (history ++ [sample]) estimate := by
  obtain ⟨before, since, rfl, hsince⟩ := h
  refine ⟨before, since ++ [sample], by rw [List.append_assoc, List.cons_append], ?_⟩
  intro later hlater
  rcases List.mem_append.mp hlater with hlater | hlater
  · exact hsince later hlater
  · rw [List.mem_singleton.mp hlater]
    exact hle

theorem ranked_fill (history : List α) (sample : α) : filter.Ranked (history ++ [sample]) sample (.fill sample) :=
  have hleads := filter.leads_append_self history sample
  ⟨.refl sample, .refl sample, .refl sample, hleads, hleads, hleads, hleads⟩

theorem tracks_fill (history : List α) (sample : α) : filter.Tracks (history ++ [sample]) sample (.fill sample) :=
  ⟨ranked_fill history sample, filter.not_expired_self sample⟩

theorem Ranked.first_sample (h : filter.Ranked history sample top) : filter.Outranks top.first sample :=
  h.first_second.trans (h.second_third.trans h.third_sample)

theorem Ranked.second (h : filter.Ranked history sample top) :
    filter.Ranked history sample ⟨top.first, sample, sample⟩ :=
  ⟨h.first_sample, .refl sample, .refl sample, h.first_leads, h.sample_leads, h.sample_leads, h.sample_leads⟩

theorem Ranked.third (h : filter.Ranked history sample top) :
    filter.Ranked history sample ⟨top.first, top.second, sample⟩ :=
  ⟨h.first_second, h.second_third.trans h.third_sample, .refl sample, h.first_leads, h.second_leads,
    h.sample_leads, h.sample_leads⟩

theorem Ranked.shift (h : filter.Ranked history sample top) :
    filter.Ranked history sample ⟨top.second, top.third, sample⟩ :=
  ⟨h.second_third, h.third_sample, .refl sample, h.second_leads, h.third_leads, h.sample_leads, h.sample_leads⟩

theorem Ranked.offer (h : filter.Ranked history last top) (hround : filter.round last ≤ filter.round sample)
    (hlt : filter.value sample < filter.value top.first) :
    filter.Ranked (history ++ [sample]) sample (filter.offer top sample) := by
  have hthird := Nat.le_trans h.third_sample.round_le hround
  have hsecond := Nat.le_trans h.second_third.round_le hthird
  have hfirst := Nat.le_trans h.first_second.round_le hsecond
  have hself := filter.leads_append_self history sample
  rw [WindowedMax.offer]
  split_ifs with hge hge'
  · exact ⟨⟨le_of_lt hlt, hfirst⟩, .refl sample, .refl sample, h.first_leads.append (le_of_lt hlt), hself, hself, hself⟩
  · have hle := le_of_lt (lt_of_not_ge hge)
    exact ⟨h.first_second, ⟨hle, hsecond⟩, .refl sample, h.first_leads.append (le_of_lt hlt), h.second_leads.append hle,
      hself, hself⟩
  · have hle := le_of_lt (lt_of_not_ge hge)
    have hle' := le_of_lt (lt_of_not_ge hge')
    exact ⟨h.first_second, h.second_third, ⟨hle', hthird⟩, h.first_leads.append (le_of_lt hlt), h.second_leads.append hle,
      h.third_leads.append hle', hself⟩

theorem offer_third (hthird : ¬ filter.Expired sample top.third) :
    ¬ filter.Expired sample (filter.offer top sample).third := by
  rw [WindowedMax.offer]
  split_ifs
  · exact filter.not_expired_self sample
  · exact filter.not_expired_self sample
  · exact hthird

theorem Ranked.retire (h : filter.Ranked history sample top) (hthird : ¬ filter.Expired sample top.third) :
    filter.Tracks history sample (filter.retire top sample) := by
  rw [WindowedMax.retire]
  split_ifs with hsecond
  · exact ⟨h.shift.shift, hthird⟩
  · exact ⟨h.shift, hsecond⟩

theorem Ranked.age (h : filter.Ranked history sample top) (hthird : ¬ filter.Expired sample top.third) :
    filter.Tracks history sample (filter.age top sample) := by
  rw [WindowedMax.age]
  split_ifs with hfirst
  · exact h.retire hthird
  · exact ⟨h.second, hfirst⟩
  · exact ⟨h.third, hfirst⟩
  · exact ⟨h, hfirst⟩

theorem tracks_update_of_unset (h : filter.value top.first = filter.unset) (history : List α) (sample : α) :
    filter.Tracks (history ++ [sample]) sample (filter.update top sample) := by
  rw [update, if_pos (.inl h)]
  exact tracks_fill history sample

theorem Ranked.update (h : filter.Ranked history last top) (hround : filter.round last ≤ filter.round sample) :
    filter.Tracks (history ++ [sample]) sample (filter.update top sample) := by
  rw [WindowedMax.update]
  split_ifs with hreset
  · exact tracks_fill history sample
  · obtain ⟨-, hlt, hthird⟩ := not_or.mp hreset |>.imp_right not_or.mp
    exact (h.offer hround (lt_of_not_ge hlt)).age (offer_third hthird)

theorem tracks_foldl_update (hunset : filter.value top.first = filter.unset) (samples : List α) (sample : α)
    (hordered : (samples ++ [sample]).Pairwise fun a b => filter.round a ≤ filter.round b) :
    filter.Tracks (samples ++ [sample]) sample ((samples ++ [sample]).foldl filter.update top) := by
  rw [List.foldl_concat]
  -- the sample before is the one that the estimates are ranked by
  induction samples using List.reverseRecOn generalizing sample with
  | nil => exact tracks_update_of_unset hunset [] sample
  | append_singleton samples last ih =>
    rw [List.foldl_concat]
    obtain ⟨hbefore, -, hlast⟩ := List.pairwise_append.mp hordered
    exact (ih last hbefore).toRanked.update
      (hlast last (List.mem_append_right _ (List.mem_singleton_self _)) sample (List.mem_singleton_self _))

end WindowedMax

end Hysteria.Lib
