import Mathlib.Algebra.GroupWithZero.Nat
import Mathlib.Data.List.Basic
import Mathlib.Tactic.Common

/-! Tables whose entries are numbered in the order in which they were added: where an
entry of the changed table comes from. -/
namespace Hysteria.Lib

variable {α : Type u}

theorem of_getElem?_concat {l : List α} {a b : α} {i : Nat} (h : (l ++ [a])[i]? = some b) :
    l[i]? = some b ∨ i = l.length ∧ b = a := by
  rcases Nat.lt_or_ge i l.length with hlt | hge
  · rw [List.getElem?_append_left hlt] at h
    exact .inl h
  · rw [List.getElem?_append_right hge, List.getElem?_singleton] at h
    split at h
    · next hzero => exact .inr ⟨by omega, (Option.some.inj h).symm⟩
    · cases h

theorem of_getElem?_set {l : List α} {a b : α} {i j : Nat} (h : (l.set i a)[j]? = some b) :
    j = i ∧ b = a ∨ j ≠ i ∧ l[j]? = some b := by
  rw [List.getElem?_set] at h
  split at h
  · next hij =>
    split at h
    · exact .inl ⟨hij.symm, (Option.some.inj h).symm⟩
    · cases h
  · next hij => exact .inr ⟨fun e => hij e.symm, h⟩

theorem of_getElem?_modify {l : List α} {f : α → α} {b : α} {i j : Nat}
    (h : (l.modify i f)[j]? = some b) :
    ∃ a, l[j]? = some a ∧ (j = i ∧ b = f a ∨ j ≠ i ∧ b = a) := by
  rw [List.getElem?_modify] at h
  obtain ⟨a, ha, hb⟩ := Option.map_eq_some_iff.mp h
  refine ⟨a, ha, ?_⟩
  split at hb
  · next hij => exact .inl ⟨hij.symm, hb.symm⟩
  · next hij => exact .inr ⟨fun e => hij e.symm, hb.symm⟩

theorem getElem?_modify_of_getElem? {l : List α} {f : α → α} {a : α} {i j : Nat}
    (h : l[j]? = some a) : (l.modify i f)[j]? = some (if i = j then f a else a) := by
  rw [List.getElem?_modify, h, Option.map_eq_map, Option.map_some]

theorem sum_map_set (f : α → Nat) {l : List α} {i : Nat} {old : α} (h : l[i]? = some old) (new : α) :
    ((l.set i new).map f).sum + f old = (l.map f).sum + f new := by
  induction l generalizing i with
  | nil => cases h
  | cons a l ih =>
    cases i with
    | zero =>
      cases h
      simp only [List.set_cons_zero, List.map_cons, List.sum_cons]
      omega
    | succ i =>
      have htail := ih (show l[i]? = some old from h)
      simp only [List.set_cons_succ, List.map_cons, List.sum_cons]
      omega

end Hysteria.Lib
