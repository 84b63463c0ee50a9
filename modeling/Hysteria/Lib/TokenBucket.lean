import Mathlib.Algebra.Order.Field.Basic
import Mathlib.Algebra.BigOperators.Ring.Finset
import Mathlib.Tactic.Linarith

/-! Metering by a bucket of tokens. It fills at a constant rate up to its burst size, and
whatever is taken lowers its level. From what a refill and a withdrawal do to the level
follows how much can be taken in any interval of time. -/
namespace Hysteria.Lib

variable {K : Type u} [Field K] [LinearOrder K]

structure Withdrawal (K : Type u) where
  time : K
  amount : K

def takenBetween (t₀ t₁ : K) (log : List (Withdrawal K)) : K :=
  ((log.filter fun taken => t₀ ≤ taken.time ∧ taken.time ≤ t₁).map Withdrawal.amount).sum

theorem takenBetween_cons (t₀ t₁ : K) (taken : Withdrawal K) (log : List (Withdrawal K)) :
    takenBetween t₀ t₁ (taken :: log) =
      (if t₀ ≤ taken.time ∧ taken.time ≤ t₁ then taken.amount else 0) + takenBetween t₀ t₁ log := by
  unfold takenBetween
  rw [List.filter_cons]
  split_ifs with h h' <;> simp_all

theorem takenBetween_of_past {now t₁ : K} {log : List (Withdrawal K)} (hpast : ∀ taken ∈ log, taken.time ≤ now)
    (ht₁ : now ≤ t₁) (t₀ : K) : takenBetween t₀ t₁ log = takenBetween t₀ now log := by
  unfold takenBetween
  congr 2
  apply List.filter_congr
  intro taken hmem
  have hnow := hpast taken hmem
  simp [hnow, hnow.trans ht₁]

theorem takenBetween_eq_zero {now t₀ : K} {log : List (Withdrawal K)} (hpast : ∀ taken ∈ log, taken.time ≤ now)
    (ht₀ : now < t₀) (t₁ : K) : takenBetween t₀ t₁ log = 0 := by
  have hnone : log.filter (fun taken => t₀ ≤ taken.time ∧ taken.time ≤ t₁) = [] := by
    rw [List.filter_eq_nil_iff]
    intro taken hmem hin
    have hin : t₀ ≤ taken.time ∧ taken.time ≤ t₁ := by simpa using hin
    exact absurd (hin.1.trans (hpast taken hmem)) (not_le.mpr ht₀)
  rw [takenBetween, hnone]
  rfl

theorem takenBetween_natCast [IsStrictOrderedRing K] (time amount : α → Nat) (t₀ t₁ : Nat) (log : List α) :
    takenBetween (t₀ : K) t₁ (log.map fun entry => ⟨time entry, amount entry⟩) =
      (((log.filter fun entry => t₀ ≤ time entry ∧ time entry ≤ t₁).map amount).sum : Nat) := by
  unfold takenBetween
  rw [List.filter_map, List.map_map, Nat.cast_list_sum, List.map_map]
  simp only [Function.comp_def, Nat.cast_le]

/-- The bucket has this level now, after these withdrawals. `since` is the invariant that
carries `between`: what is still there counts as if it were about to be taken. -/
structure Metered (burst rate now level : K) (log : List (Withdrawal K)) : Prop where
  nonneg : 0 ≤ level
  le_burst : level ≤ burst
  past : ∀ taken ∈ log, taken.time ≤ now
  since : ∀ t₀ ≤ now, takenBetween t₀ now log + level ≤ burst + rate * (now - t₀)
  between : ∀ t₀ t₁, t₀ ≤ t₁ → takenBetween t₀ t₁ log ≤ burst + rate * (t₁ - t₀)

namespace Metered

variable [IsStrictOrderedRing K] {burst rate now level : K} {log : List (Withdrawal K)}

theorem full (hburst : 0 ≤ burst) (hrate : 0 ≤ rate) (now : K) : Metered burst rate now burst [] where
  nonneg := hburst
  le_burst := le_rfl
  past := by simp
  since t₀ ht₀ := by
    have hpos : 0 ≤ rate * (now - t₀) := mul_nonneg hrate (sub_nonneg.mpr ht₀)
    simpa [takenBetween] using hpos
  between t₀ t₁ hle := by
    have hpos : 0 ≤ rate * (t₁ - t₀) := mul_nonneg hrate (sub_nonneg.mpr hle)
    simpa [takenBetween] using add_nonneg hburst hpos

theorem refill (h : Metered burst rate now level log) (hrate : 0 ≤ rate) {later filled : K}
    (hlater : now ≤ later) (hnonneg : 0 ≤ filled)
    (hfilled : filled ≤ min (level + rate * (later - now)) burst) :
    Metered burst rate later filled log where
  nonneg := hnonneg
  le_burst := hfilled.trans (min_le_right _ _)
  past taken hmem := (h.past taken hmem).trans hlater
  since t₀ ht₀ := by
    rcases le_or_gt t₀ now with hold | hnew
    · have hsince := h.since t₀ hold
      have hrefill : filled ≤ level + rate * (later - now) := hfilled.trans (min_le_left _ _)
      rw [takenBetween_of_past h.past hlater]
      linarith
    · have hpos : 0 ≤ rate * (later - t₀) := mul_nonneg hrate (sub_nonneg.mpr ht₀)
      have hburst : filled ≤ burst := hfilled.trans (min_le_right _ _)
      rw [takenBetween_eq_zero h.past hnew]
      linarith
  between := h.between

theorem take (h : Metered burst rate now level log) (hrate : 0 ≤ rate) {amount : K}
    (hamount : 0 ≤ amount) (hle : amount ≤ level) :
    Metered burst rate now (level - amount) (⟨now, amount⟩ :: log) where
  nonneg := sub_nonneg.mpr hle
  le_burst := by
    have := h.le_burst
    linarith
  past := by
    intro taken hmem
    rcases List.mem_cons.mp hmem with rfl | hold
    · exact le_rfl
    · exact h.past taken hold
  since t₀ ht₀ := by
    have hsince := h.since t₀ ht₀
    rw [takenBetween_cons, if_pos ⟨ht₀, le_rfl⟩]
    linarith
  between t₀ t₁ hle₁ := by
    rw [takenBetween_cons]
    split_ifs with hin
    · -- The interval reaches beyond now, where nothing was taken yet.
      have hsince := h.since t₀ hin.1
      have hlonger : rate * (now - t₀) ≤ rate * (t₁ - t₀) :=
        mul_le_mul_of_nonneg_left (sub_le_sub_right hin.2 t₀) hrate
      rw [takenBetween_of_past h.past hin.2]
      linarith
    · rw [zero_add]
      exact h.between t₀ t₁ hle₁

end Metered
end Hysteria.Lib
