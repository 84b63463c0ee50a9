import Hysteria.Lib.Table
import Mathlib.Data.List.Nodup
import Mathlib.Tactic.Common

/-! Arrays of slots that are filled one at a time, in any order. -/
namespace Hysteria.Lib

variable {α : Type u}

def filled (slots : List (Option α)) : Nat := slots.countP Option.isSome

def filledSum (f : α → Nat) (slots : List (Option α)) : Nat :=
  (slots.map fun slot => slot.elim 0 f).sum

theorem filled_replicate (n : Nat) : filled (List.replicate n (none : Option α)) = 0 := by
  simp [filled, List.countP_replicate]

theorem filledSum_replicate (f : α → Nat) (n : Nat) :
    filledSum f (List.replicate n none) = 0 := by
  simp [filledSum]

theorem filled_set {slots : List (Option α)} {i : Nat} (h : slots[i]? = some none) (a : α) :
    filled (slots.set i (some a)) = filled slots + 1 := by
  induction slots generalizing i with
  | nil => simp at h
  | cons slot slots ih =>
    cases i with
    | zero =>
      obtain rfl : slot = none := by simpa using h
      simp [filled]
    | succ i =>
      have htail := ih (by simpa using h)
      simp only [filled] at htail
      simp only [filled, List.set_cons_succ, List.countP_cons, htail]
      omega

theorem filledSum_set (f : α → Nat) {slots : List (Option α)} {i : Nat}
    (h : slots[i]? = some none) (a : α) :
    filledSum f (slots.set i (some a)) = filledSum f slots + f a := by
  induction slots generalizing i with
  | nil => simp at h
  | cons slot slots ih =>
    cases i with
    | zero =>
      obtain rfl : slot = none := by simpa using h
      simp [filledSum, Nat.add_comm]
    | succ i =>
      have htail := ih (by simpa using h)
      simp only [filledSum] at htail
      simp only [filledSum, List.set_cons_succ, List.map_cons, List.sum_cons, htail]
      omega

theorem exists_map_some {slots : List (Option α)} (h : ∀ slot ∈ slots, slot.isSome) :
    ∃ values : List α, slots = values.map some := by
  induction slots with
  | nil => exact ⟨[], rfl⟩
  | cons slot slots ih =>
    obtain ⟨value, rfl⟩ := Option.isSome_iff_exists.mp (h slot (by simp))
    obtain ⟨values, rfl⟩ := ih fun slot hslot => h slot (by simp [hslot])
    exact ⟨value :: values, rfl⟩

theorem exists_values {slots : List (Option α)} (h : filled slots = slots.length) :
    ∃ values : List α, slots = values.map some :=
  exists_map_some (List.countP_eq_length.mp h)

theorem getElem?_set_some {slots : List (Option α)} {i j : Nat} {a b : α}
    (h : (slots.set i (some a))[j]? = some (some b)) :
    j = i ∧ b = a ∨ j ≠ i ∧ slots[j]? = some (some b) :=
  (of_getElem?_set h).imp_left fun ⟨hij, hsome⟩ => ⟨hij, Option.some.inj hsome⟩

theorem exists_last {p : α → Prop} {l : List α} (h : ∃ a ∈ l, p a) :
    ∃ before a after, l = before ++ a :: after ∧ p a ∧ ∀ b ∈ after, ¬ p b := by
  induction l with
  | nil => simp at h
  | cons first l ih =>
    by_cases hl : ∃ a ∈ l, p a
    · obtain ⟨before, a, after, rfl, ha, hafter⟩ := ih hl
      exact ⟨first :: before, a, after, rfl, ha, hafter⟩
    · push Not at hl
      obtain ⟨a, hmem, ha⟩ := h
      rcases List.mem_cons.mp hmem with rfl | hmem
      · exact ⟨[], a, l, rfl, ha, hl⟩
      · exact absurd ha (hl a hmem)

section
variable [DecidableEq α]

/-- The slots of a list of values of which those in `present` have arrived. -/
def slotsOf (values present : List α) : List (Option α) :=
  values.map fun value => if value ∈ present then some value else none

@[simp] theorem length_slotsOf (values present : List α) :
    (slotsOf values present).length = values.length := by
  simp [slotsOf]

theorem getElem?_slotsOf_absent {values present : List α} {i : Nat} {value : α}
    (hi : values[i]? = some value) (h : value ∉ present) :
    (slotsOf values present)[i]? = some none := by
  simp [slotsOf, hi, h]

theorem slotsOf_disjoint {values present : List α} (h : ∀ value ∈ values, value ∉ present) :
    slotsOf values present = List.replicate values.length none := by
  rw [List.eq_replicate_iff]
  refine ⟨length_slotsOf _ _, ?_⟩
  intro slot hslot
  obtain ⟨value, hvalue, rfl⟩ := List.mem_map.mp hslot
  rw [if_neg (h value hvalue)]

theorem slotsOf_all {values present : List α} (h : ∀ value ∈ values, value ∈ present) :
    slotsOf values present = values.map some := by
  apply List.map_congr_left
  intro value hvalue
  rw [if_pos (h value hvalue)]

theorem slotsOf_concat_of_not_mem {values : List α} (present : List α) {value : α}
    (h : value ∉ values) : slotsOf values (present ++ [value]) = slotsOf values present := by
  apply List.map_congr_left
  intro other hother
  have hne : other ≠ value := fun heq => h (heq ▸ hother)
  simp [hne]

theorem slotsOf_concat {values : List α} (hnodup : values.Nodup) (present : List α) {i : Nat}
    {value : α} (hi : values[i]? = some value) :
    slotsOf values (present ++ [value]) = (slotsOf values present).set i (some value) := by
  apply List.ext_getElem?
  intro j
  rw [List.getElem?_set]
  obtain ⟨hlt, hget⟩ := List.getElem?_eq_some_iff.mp hi
  split
  · next hij =>
    subst hij
    simp [slotsOf, hlt, hget]
  · next hij =>
    rw [slotsOf, slotsOf, List.getElem?_map, List.getElem?_map]
    cases hj : values[j]? with
    | none => rfl
    | some other =>
      have hne : other ≠ value := by
        rintro rfl
        exact hij (List.getElem?_inj hlt hnodup |>.mp (hi.trans hj.symm))
      simp [hne]

theorem filled_slotsOf_eq_length {values present : List α} :
    filled (slotsOf values present) = values.length ↔ ∀ value ∈ values, value ∈ present := by
  rw [filled, slotsOf, List.countP_map, List.countP_eq_length]
  simp only [Function.comp_apply]
  constructor
  · intro h value hvalue
    by_contra hnot
    simpa [hnot] using h value hvalue
  · intro h value hvalue
    simp [h value hvalue]

end

end Hysteria.Lib
