import Mathlib.Algebra.BigOperators.Fin
import Mathlib.Data.Nat.ModEq

/-! Sums over a sliding window, kept in a ring of slots. The slot for an instant is that of its
remainder, and it is overwritten when an instant comes that is not the one it holds. As long as
no instant is before an earlier one, the slots that are not too old hold what was recorded
within the window. -/
namespace Hysteria.Lib

structure Slot (M : Type u) where
  time : Nat
  sum : M

structure Sample (M : Type u) where
  time : Nat
  value : M

def recordedWhere {M : Type u} [AddCommMonoid M] (p : Nat → Bool) (history : List (Sample M)) : M :=
  ((history.filter fun sample => p sample.time).map Sample.value).sum

section
variable {M : Type u} [AddCommMonoid M]

@[simp] theorem recordedWhere_nil (p : Nat → Bool) : recordedWhere p ([] : List (Sample M)) = 0 := rfl

theorem recordedWhere_cons (p : Nat → Bool) (sample : Sample M) (history : List (Sample M)) :
    recordedWhere p (sample :: history) = (if p sample.time then sample.value else 0) + recordedWhere p history := by
  unfold recordedWhere
  by_cases h : p sample.time <;> simp [h]

theorem recordedWhere_concat (p : Nat → Bool) (history : List (Sample M)) (sample : Sample M) :
    recordedWhere p (history ++ [sample]) = recordedWhere p history + if p sample.time then sample.value else 0 := by
  unfold recordedWhere
  by_cases h : p sample.time <;> simp [h]

theorem recordedWhere_congr {p q : Nat → Bool} {history : List (Sample M)}
    (h : ∀ sample ∈ history, p sample.time = q sample.time) : recordedWhere p history = recordedWhere q history := by
  unfold recordedWhere
  rw [List.filter_congr h]

theorem recordedWhere_eq_zero {p : Nat → Bool} {history : List (Sample M)}
    (h : ∀ sample ∈ history, p sample.time = false) : recordedWhere p history = 0 := by
  unfold recordedWhere
  rw [List.filter_eq_nil_iff.mpr (by simpa using h)]
  rfl

theorem sum_recordedWhere {ι : Type v} [Fintype ι] [DecidableEq ι] (key : Nat → ι) (p : Nat → Bool)
    (history : List (Sample M)) :
    ∑ i, recordedWhere (fun t => decide (key t = i) && p t) history = recordedWhere p history := by
  induction history with
  | nil => simp
  | cons sample history ih =>
    simp only [recordedWhere_cons, Finset.sum_add_distrib, ih]
    by_cases h : p sample.time <;> simp [h]

end

abbrev SlotRing (n : Nat) (M : Type u) := Fin n → Slot M

namespace SlotRing
variable {n : Nat} [NeZero n] {M : Type u} [AddCommMonoid M]

def slotOf (n : Nat) [NeZero n] (t : Nat) : Fin n := Fin.ofNat n t

def empty : SlotRing n M := fun _ => ⟨0, 0⟩

def record (ring : SlotRing n M) (now : Nat) (value : M) : SlotRing n M :=
  let slot := ring (slotOf n now)
  Function.update ring (slotOf n now) (if slot.time = now then ⟨now, slot.sum + value⟩ else ⟨now, value⟩)

def total (ring : SlotRing n M) (oldest : Nat) : M :=
  ∑ i, if oldest ≤ (ring i).time then (ring i).sum else 0

/-- A ring after this history, up to an instant. A slot that was never used has the time 0. -/
structure Tracks (ring : SlotRing n M) (now : Nat) (history : List (Sample M)) : Prop where
  sum : ∀ i, (ring i).sum = recordedWhere (fun t => decide (slotOf n t = i) && decide (t = (ring i).time)) history
  newest : ∀ sample ∈ history, sample.time ≤ (ring (slotOf n sample.time)).time
  place : ∀ i, slotOf n (ring i).time = i ∨ (ring i).time = 0
  past : ∀ i, (ring i).time ≤ now

theorem eq_of_slotOf_eq {t u : Nat} (h : slotOf n t = slotOf n u) (hle : t ≤ u) (hlt : u < t + n) : t = u := by
  have hmod : t ≡ u [MOD n] := congrArg Fin.val h
  obtain ⟨d, rfl⟩ := Nat.exists_eq_add_of_le hle
  have hzero : 0 ≡ d [MOD n] := Nat.ModEq.add_left_cancel' t hmod
  have hd := hzero.eq_of_lt_of_lt (Nat.pos_of_neZero n) (by omega)
  omega

theorem slotOf_sub {now : Nat} (h : n ≤ now) : slotOf n (now - n) = slotOf n now := by
  apply Fin.ext
  exact (Nat.mod_eq_sub_mod h).symm

theorem empty_tracks (now : Nat) : Tracks (empty : SlotRing n M) now [] where
  sum := by simp [empty]
  newest := nofun
  place := by simp [empty]
  past := by simp [empty]

variable {ring : SlotRing n M} {now : Nat} {history : List (Sample M)}

theorem record_time (ring : SlotRing n M) (now : Nat) (value : M) (i : Fin n) :
    (ring.record now value i).time = if i = slotOf n now then now else (ring i).time := by
  unfold record
  by_cases h : i = slotOf n now
  · subst h
    rw [Function.update_self, if_pos rfl]
    split <;> rfl
  · rw [Function.update_of_ne h, if_neg h]

theorem record_self (ring : SlotRing n M) (now : Nat) (value : M) : (ring.record now value (slotOf n now)).time = now := by
  rw [record_time, if_pos rfl]

theorem recordedWhere_slot_eq_zero {i : Fin n} {p : Nat → Bool}
    (h : ∀ sample ∈ history, slotOf n sample.time = i → p sample.time = false) :
    recordedWhere (fun t => decide (slotOf n t = i) && p t) history = 0 := by
  apply recordedWhere_eq_zero
  intro sample hmem
  by_cases hslot : slotOf n sample.time = i
  · rw [h sample hmem hslot, Bool.and_false]
  · rw [decide_eq_false hslot, Bool.false_and]

namespace Tracks

theorem time_le (h : ring.Tracks now history) {sample : Sample M} (hmem : sample ∈ history) : sample.time ≤ now :=
  (h.newest sample hmem).trans (h.past _)

theorem time_le_slot (h : ring.Tracks now history) {sample : Sample M} (hmem : sample ∈ history) {i : Fin n}
    (hslot : slotOf n sample.time = i) : sample.time ≤ (ring i).time := by
  have hnewest := h.newest sample hmem
  rwa [hslot] at hnewest

theorem sum_record (h : ring.Tracks now history) {later : Nat} (hlater : now ≤ later) (value : M) (i : Fin n) :
    (ring.record later value i).sum = recordedWhere
      (fun t => decide (slotOf n t = i) && decide (t = (ring.record later value i).time)) (history ++ [⟨later, value⟩]) := by
  rw [recordedWhere_concat, record_time]
  unfold SlotRing.record
  by_cases hi : i = slotOf n later
  · subst hi
    rw [Function.update_self, if_pos rfl]
    by_cases hsame : (ring (slotOf n later)).time = later
    · have hsum := h.sum (slotOf n later)
      rw [hsame] at hsum
      simp [hsame, hsum]
    · -- the slot is overwritten, and nothing was recorded at this instant before
      have hnone : recordedWhere (fun t => decide (slotOf n t = slotOf n later) && decide (t = later)) history = 0 := by
        apply recordedWhere_slot_eq_zero
        intro sample hmem hslot
        have hle := h.time_le_slot hmem hslot
        have hpast := h.past (slotOf n later)
        exact decide_eq_false (by omega)
      simp [hsame, hnone]
  · rw [Function.update_of_ne hi, if_neg hi, h.sum i]
    simp [Ne.symm hi]

theorem record (h : ring.Tracks now history) {later : Nat} (hlater : now ≤ later) (value : M) :
    (ring.record later value).Tracks later (history ++ [⟨later, value⟩]) where
  sum := h.sum_record hlater value
  newest := by
    intro sample hmem
    rw [List.mem_append, List.mem_singleton] at hmem
    rw [record_time]
    rcases hmem with hmem | rfl
    · split
      · exact (h.time_le hmem).trans hlater
      · exact h.newest sample hmem
    · rw [if_pos rfl]
  place := by
    intro i
    rw [record_time]
    split
    · next hi => exact .inl hi.symm
    · exact h.place i
  past := by
    intro i
    rw [record_time]
    split
    · exact Nat.le_refl later
    · exact (h.past i).trans hlater

theorem sum_recent (h : ring.Tracks now history) {i : Fin n} (hrecent : now < (ring i).time + n) :
    (ring i).sum = recordedWhere (fun t => decide (slotOf n t = i) && decide (now < t + n)) history := by
  rw [h.sum i]
  apply recordedWhere_congr
  intro sample hmem
  by_cases hslot : slotOf n sample.time = i
  · have hle := h.time_le_slot hmem hslot
    have hpast := h.past i
    have hwindow : sample.time = (ring i).time ↔ now < sample.time + n := by
      constructor
      · omega
      · intro hwindow
        rcases h.place i with hplace | hzero
        · exact eq_of_slotOf_eq (hslot.trans hplace.symm) hle (by omega)
        · omega
    simp [hslot, hwindow]
  · simp [hslot]

theorem recordedWhere_old (h : ring.Tracks now history) {i : Fin n} (hold : (ring i).time + n ≤ now) :
    recordedWhere (fun t => decide (slotOf n t = i) && decide (now < t + n)) history = 0 := by
  apply recordedWhere_slot_eq_zero
  intro sample hmem hslot
  have hle := h.time_le_slot hmem hslot
  exact decide_eq_false (by omega)

theorem sum_old (h : ring.Tracks now history) (hnow : (ring (slotOf n now)).time = now) {i : Fin n}
    (hold : (ring i).time + n = now) : (ring i).sum = 0 := by
  have hpos := Nat.pos_of_neZero n
  rw [h.sum i]
  apply recordedWhere_slot_eq_zero
  intro sample hmem hslot
  apply decide_eq_false
  intro htime
  have hage : sample.time = now - n := by omega
  rw [hage, slotOf_sub (by omega)] at hslot
  rw [hslot] at hnow
  omega

/-- The slots that are at most `n` old sum up to the window: the one that is exactly `n` old holds nothing. -/
theorem total_eq (h : ring.Tracks now history) (hnow : (ring (slotOf n now)).time = now) :
    ring.total (now - n) = recordedWhere (fun t => decide (now < t + n)) history := by
  rw [← sum_recordedWhere (slotOf n)]
  apply Finset.sum_congr rfl
  intro i _
  by_cases hrecent : now < (ring i).time + n
  · rw [if_pos (by omega), h.sum_recent hrecent]
  · rw [h.recordedWhere_old (by omega)]
    split
    · exact h.sum_old hnow (by omega)
    · rfl

end Tracks
end SlotRing
end Hysteria.Lib
