import Mathlib.Data.List.Basic
import Mathlib.Data.List.Infix
import Mathlib.Order.Nat

/-! The first place at which a sequence of elements occurs in a list, and the
pieces a list falls into at the places where it occurs. -/
namespace Hysteria.Lib

variable {α : Type u} [DecidableEq α]

/-- `xs.windows(needle.len()).position(|window| window == needle)` -/
def findSeq (needle : List α) : List α → Option Nat
  | [] => if needle = [] then some 0 else none
  | x :: xs => if needle <+: x :: xs then some 0 else (findSeq needle xs).map (· + 1)

theorem findSeq_of_start {needle xs : List α} (h : needle <+: xs) : findSeq needle xs = some 0 := by
  cases xs with
  | nil => rw [findSeq, if_pos (List.prefix_nil.mp h)]
  | cons x xs => rw [findSeq, if_pos h]

theorem findSeq_cons {needle : List α} {x : α} {xs : List α} (h : ¬ needle <+: x :: xs) :
    findSeq needle (x :: xs) = (findSeq needle xs).map (· + 1) := if_neg h

theorem findSeq_spec {needle xs : List α} {i : Nat} (h : findSeq needle xs = some i) :
    needle <+: xs.drop i ∧ i + needle.length ≤ xs.length := by
  induction xs generalizing i with
  | nil =>
    rw [findSeq] at h
    split at h
    case isTrue hnil =>
      cases h
      simp [hnil]
    case isFalse => cases h
  | cons x xs ih =>
    rw [findSeq] at h
    split at h
    case isTrue hstart =>
      cases h
      exact ⟨hstart, by simpa using hstart.length_le⟩
    case isFalse =>
      obtain ⟨j, hj, rfl⟩ := Option.map_eq_some_iff.mp h
      obtain ⟨hfound, hle⟩ := ih hj
      exact ⟨hfound, by rw [List.length_cons]; omega⟩

theorem findSeq_split {needle xs : List α} {i : Nat} (h : findSeq needle xs = some i) :
    xs.take i ++ needle ++ xs.drop (i + needle.length) = xs := by
  obtain ⟨⟨rest, hrest⟩, -⟩ := findSeq_spec h
  have hdrop : xs.drop (i + needle.length) = rest := by
    rw [← List.drop_drop, ← hrest, List.drop_left]
  rw [hdrop, List.append_assoc, hrest, List.take_append_drop]

theorem findSeq_append {needle xs : List α} {i : Nat} (h : findSeq needle xs = some i) (ys : List α) :
    findSeq needle (xs ++ ys) = some i := by
  induction xs generalizing i with
  | nil =>
    rw [findSeq] at h
    split at h
    case isTrue hnil =>
      cases h
      exact findSeq_of_start (hnil ▸ List.nil_prefix)
    case isFalse => cases h
  | cons x xs ih =>
    by_cases hstart : needle <+: x :: xs
    · rw [findSeq_of_start hstart] at h
      cases h
      exact findSeq_of_start (hstart.trans (List.prefix_append _ _))
    · rw [findSeq_cons hstart] at h
      obtain ⟨j, hj, rfl⟩ := Option.map_eq_some_iff.mp h
      -- the sequence fits into the first list, so it is not a prefix of both together
      have hlen : needle.length ≤ (x :: xs).length := by
        have := (findSeq_spec hj).2
        rw [List.length_cons]
        omega
      have hnot : ¬ needle <+: x :: (xs ++ ys) := by
        intro hboth
        exact hstart (List.prefix_of_prefix_length_le hboth (List.prefix_append (x :: xs) ys) hlen)
      rw [List.cons_append, findSeq_cons hnot, ih hj, Option.map_some]

theorem findSeq_eq_none_iff {needle xs : List α} : findSeq needle xs = none ↔ ¬ needle <:+: xs := by
  induction xs with
  | nil =>
    rw [findSeq, List.infix_nil]
    split <;> simp_all
  | cons x xs ih =>
    rw [List.infix_cons_iff, not_or, ← ih]
    by_cases hstart : needle <+: x :: xs
    · simp [findSeq_of_start hstart, hstart]
    · simp [findSeq_cons hstart, hstart]

theorem findSeq_eq_none_of_short {needle xs ys : List α} {i : Nat} (h : findSeq needle xs = some i)
    (hstart : ys <+: xs) (hlen : ys.length < i + needle.length) : findSeq needle ys = none := by
  obtain ⟨rest, rfl⟩ := hstart
  cases hys : findSeq needle ys with
  | none => rfl
  | some j =>
    rw [findSeq_append hys rest] at h
    cases h
    have := (findSeq_spec hys).2
    omega

theorem findSeq_of_long {needle xs ys : List α} {i : Nat} (h : findSeq needle xs = some i)
    (hstart : ys <+: xs) (hlen : i + needle.length ≤ ys.length) : findSeq needle ys = some i := by
  cases hys : findSeq needle ys with
  | some j =>
    obtain ⟨rest, rfl⟩ := hstart
    rw [findSeq_append hys rest] at h
    exact h
  | none =>
    have hi := (findSeq_spec h).2
    have hfirst : xs.take i ++ needle <+: xs := ⟨_, findSeq_split h⟩
    have hwithin : xs.take i ++ needle <+: ys := by
      refine List.prefix_of_prefix_length_le hfirst hstart ?_
      rw [List.length_append, List.length_take]
      omega
    exact absurd ((List.suffix_append _ needle).isInfix.trans hwithin.isInfix) (findSeq_eq_none_iff.mp hys)

theorem findSeq_skip {a : α} {needle xs : List α} (h : a ∉ xs) (ys : List α) :
    findSeq (a :: needle) (xs ++ ys) = (findSeq (a :: needle) ys).map (· + xs.length) := by
  induction xs with
  | nil => simp
  | cons x xs ih =>
    obtain ⟨hx, hxs⟩ := not_or.mp (List.mem_cons.not.mp h)
    have hnot : ¬ a :: needle <+: x :: (xs ++ ys) := fun hp => hx (List.cons_prefix_cons.mp hp).1
    rw [List.cons_append, findSeq_cons hnot, ih hxs, Option.map_map]
    rfl

theorem findSeq_eq_none_of_start {needle xs ys : List α} (h : findSeq needle xs = none) (hstart : ys <+: xs) :
    findSeq needle ys = none := by
  rw [findSeq_eq_none_iff] at h ⊢
  exact fun hys => h (hys.trans hstart.isInfix)

theorem findSeq_take {needle xs : List α} {i : Nat} (h : findSeq needle xs = some i) :
    findSeq needle (xs.take i ++ needle) = some i := by
  cases hfirst : findSeq needle (xs.take i ++ needle) with
  | none => exact absurd (List.suffix_append _ needle).isInfix (findSeq_eq_none_iff.mp hfirst)
  | some j =>
    have hwhole := findSeq_append hfirst (xs.drop (i + needle.length))
    rw [findSeq_split h, h] at hwhole
    exact hwhole.symm

theorem findSeq_pair {a b : α} (hab : a ≠ b) {xs : List α} (hxs : ¬ [a, b] <:+: xs) (ys : List α) :
    findSeq [a, b] (xs ++ [a, b] ++ ys) = some xs.length := by
  refine findSeq_append ?_ ys
  induction xs with
  | nil => exact findSeq_of_start (List.prefix_refl _)
  | cons x xs ih =>
    obtain ⟨hstart, htail⟩ := not_or.mp (List.infix_cons_iff.not.mp hxs)
    have hnot : ¬ [a, b] <+: x :: (xs ++ [a, b]) := by
      intro hp
      cases xs with
      | nil =>
        obtain ⟨-, hp⟩ := List.cons_prefix_cons.mp hp
        exact hab (List.cons_prefix_cons.mp hp).1.symm
      | cons y xs =>
        obtain ⟨hax, hp⟩ := List.cons_prefix_cons.mp hp
        obtain ⟨hby, -⟩ := List.cons_prefix_cons.mp hp
        exact hstart ⟨xs, by rw [hax, hby]; rfl⟩
    rw [List.cons_append, findSeq_cons hnot, ih htail, Option.map_some, List.length_cons]

theorem findSeq_longer {needle more xs : List α} {i : Nat} (h : findSeq needle xs = some i)
    (hmore : needle ++ more <+: xs.drop i) : findSeq (needle ++ more) xs = some i := by
  induction xs generalizing i with
  | nil =>
    obtain rfl : i = 0 := by
      have := (findSeq_spec h).2
      rw [List.length_nil] at this
      omega
    exact findSeq_of_start hmore
  | cons x xs ih =>
    by_cases hstart : needle <+: x :: xs
    · rw [findSeq_of_start hstart] at h
      cases h
      exact findSeq_of_start hmore
    · rw [findSeq_cons hstart] at h
      obtain ⟨j, hj, rfl⟩ := Option.map_eq_some_iff.mp h
      have hnot : ¬ needle ++ more <+: x :: xs := fun hp => hstart ((List.prefix_append _ _).trans hp)
      rw [findSeq_cons hnot, ih hj hmore, Option.map_some]

theorem findSeq_pairs {a b : α} (hab : a ≠ b) {xs ys : List α} (hxs : ¬ [a, b] <:+: xs)
    (hys : ¬ [a, b] <+: ys) :
    findSeq [a, b, a, b] (xs ++ a :: b :: ys) = (findSeq [a, b, a, b] ys).map (· + (xs.length + 2)) := by
  induction xs with
  | nil =>
    have hfirst : ¬ [a, b, a, b] <+: a :: b :: ys := by
      rw [List.cons_prefix_cons, List.cons_prefix_cons]
      exact fun hp => hys hp.2.2
    have hsecond : ¬ [a, b, a, b] <+: b :: ys := fun hp => hab (List.cons_prefix_cons.mp hp).1
    rw [List.nil_append, findSeq_cons hfirst, findSeq_cons hsecond, Option.map_map]
    rfl
  | cons x xs ih =>
    obtain ⟨hstart, htail⟩ := not_or.mp (List.infix_cons_iff.not.mp hxs)
    have hnot : ¬ [a, b, a, b] <+: x :: (xs ++ a :: b :: ys) := by
      intro hp
      obtain ⟨hax, hp⟩ := List.cons_prefix_cons.mp hp
      cases xs with
      | nil => exact hab (List.cons_prefix_cons.mp hp).1.symm
      | cons y xs =>
        obtain ⟨hby, -⟩ := List.cons_prefix_cons.mp hp
        exact hstart ⟨xs, by rw [hax, hby]; rfl⟩
    rw [List.cons_append, findSeq_cons hnot, ih htail, Option.map_map]
    rfl

/-- `text.split(needle)` for the sequence of `a` and then `rest`. -/
def splitSeq (a : α) (rest : List α) (xs : List α) : List (List α) :=
  match _h : findSeq (a :: rest) xs with
  | none => [xs]
  | some i => xs.take i :: splitSeq a rest (xs.drop (i + rest.length + 1))
termination_by xs.length
decreasing_by
  have := (findSeq_spec _h).2
  simp only [List.length_cons, List.length_drop] at this ⊢
  omega

theorem splitSeq_none {a : α} {rest xs : List α} (h : findSeq (a :: rest) xs = none) :
    splitSeq a rest xs = [xs] := by
  rw [splitSeq]
  split <;> simp_all

theorem splitSeq_some {a : α} {rest xs : List α} {i : Nat} (h : findSeq (a :: rest) xs = some i) :
    splitSeq a rest xs = xs.take i :: splitSeq a rest (xs.drop (i + rest.length + 1)) := by
  rw [splitSeq]
  split <;> simp_all

theorem splitSeq_free {a : α} {rest xs piece : List α} (h : piece ∈ splitSeq a rest xs) :
    ¬ a :: rest <:+: piece := by
  induction xs using splitSeq.induct a rest with
  | case1 xs hnone =>
    rw [splitSeq_none hnone, List.mem_singleton] at h
    subst h
    exact findSeq_eq_none_iff.mp hnone
  | case2 xs i hsome ih =>
    rw [splitSeq_some hsome] at h
    rcases List.mem_cons.mp h with rfl | htail
    · refine findSeq_eq_none_iff.mp (findSeq_eq_none_of_short hsome (List.take_prefix _ _) ?_)
      simp only [List.length_take, List.length_cons]
      omega
    · exact ih htail

theorem splitSeq_pair {a b : α} (hab : a ≠ b) {xs : List α} (hxs : ¬ [a, b] <:+: xs) (ys : List α) :
    splitSeq a [b] (xs ++ [a, b] ++ ys) = xs :: splitSeq a [b] ys := by
  rw [splitSeq_some (findSeq_pair hab hxs ys), List.append_assoc, List.take_left]
  congr 2
  rw [List.length_singleton, Nat.add_assoc, ← List.drop_drop, List.drop_left]
  rfl

theorem splitSeq_lines {a b : α} (hab : a ≠ b) {xs : List α} {lines : List (List α)}
    (hxs : ¬ [a, b] <:+: xs) (hlines : ∀ line ∈ lines, ¬ [a, b] <:+: line) :
    splitSeq a [b] (xs ++ lines.flatMap ([a, b] ++ ·)) = xs :: lines := by
  induction lines generalizing xs with
  | nil =>
    rw [List.flatMap_nil, List.append_nil]
    exact splitSeq_none (findSeq_eq_none_iff.mpr hxs)
  | cons line lines ih =>
    obtain ⟨hline, hlines⟩ := List.forall_mem_cons.mp hlines
    rw [List.flatMap_cons, ← List.append_assoc, ← List.append_assoc, List.append_assoc _ line,
      splitSeq_pair hab hxs, ih hline hlines]

end Hysteria.Lib
