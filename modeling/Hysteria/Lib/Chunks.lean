import Mathlib.Data.List.Basic
import Mathlib.Tactic.Common

/-! Cutting a list into pieces of a fixed size, the last one possibly shorter. -/
namespace Hysteria.Lib

def chunkCount (n k : Nat) : Nat := (n + k - 1) / k

def chunks (k : Nat) (l : List α) : List (List α) :=
  (List.range (chunkCount l.length k)).map fun i => (l.drop (i * k)).take k

@[simp] theorem length_chunks (k : Nat) (l : List α) :
    (chunks k l).length = chunkCount l.length k := by
  simp [chunks]

theorem chunkCount_zero (k : Nat) : chunkCount 0 k = 0 := by
  cases k with
  | zero => rfl
  | succ k => exact Nat.div_eq_of_lt (by omega)

theorem chunkCount_succ {n k : Nat} (hk : 0 < k) (hn : 0 < n) :
    chunkCount n k = chunkCount (n - k) k + 1 := by
  unfold chunkCount
  rcases Nat.le_total k n with h | h
  · have hshift : n + k - 1 = n - k + k - 1 + k := by omega
    rw [hshift, Nat.add_div_right _ hk]
  · have hlow : n - k + k - 1 = k - 1 := by omega
    have hhigh : n + k - 1 = n - 1 + k := by omega
    rw [hlow, hhigh, Nat.add_div_right _ hk, Nat.div_eq_of_lt (by omega), Nat.div_eq_of_lt (by omega)]

theorem lt_chunkCount_iff {n k i : Nat} (hk : 0 < k) : i < chunkCount n k ↔ i * k < n := by
  rw [chunkCount, ← Nat.succ_le_iff, Nat.le_div_iff_mul_le hk, Nat.succ_mul]
  omega

theorem getElem?_chunks {k i : Nat} {l : List α} (hi : i < chunkCount l.length k) :
    (chunks k l)[i]? = some ((l.drop (i * k)).take k) := by
  simp [chunks, hi]

theorem chunks_nil (k : Nat) : chunks k ([] : List α) = [] := by
  simp [chunks, chunkCount_zero]

theorem chunks_eq_cons {k : Nat} (hk : 0 < k) {l : List α} (hl : 0 < l.length) :
    chunks k l = l.take k :: chunks k (l.drop k) := by
  unfold chunks
  rw [chunkCount_succ hk hl, List.range_succ_eq_map, List.map_cons, List.map_map,
    List.length_drop]
  congr 1
  · simp
  · apply List.map_congr_left
    intro i _
    simp only [Function.comp_apply, List.drop_drop]
    rw [Nat.succ_mul, Nat.add_comm]

/-- Induction over a list by dropping one chunk at a time. -/
theorem chunk_induction {k : Nat} (hk : 0 < k) {motive : List α → Prop} (nil : motive [])
    (step : ∀ l, 0 < l.length → motive (l.drop k) → motive l) : ∀ l, motive l
  | [] => nil
  | a :: l => step (a :: l) (by simp) (chunk_induction hk nil step ((a :: l).drop k))
termination_by l => l.length
decreasing_by
  simp only [List.length_drop, List.length_cons]
  omega

theorem flatten_chunks {k : Nat} (hk : 0 < k) (l : List α) : (chunks k l).flatten = l := by
  induction l using chunk_induction hk with
  | nil => simp [chunks_nil]
  | step l hl ih => rw [chunks_eq_cons hk hl, List.flatten_cons, ih, List.take_append_drop]

theorem chunks_of_length_le {k : Nat} {l : List α} (hpos : 0 < l.length) (h : l.length ≤ k) :
    chunks k l = [l] := by
  rw [chunks_eq_cons (by omega) hpos, List.take_of_length_le h, List.drop_eq_nil_of_le h,
    chunks_nil]

theorem chunks_flatten {k d : Nat} (hk : 0 < k) (f : List α × Nat → List β)
    (hf : ∀ p, (f p).length = p.1.length + d) (l : List α) (n : Nat) :
    chunks (k + d) (((chunks k l).zipIdx n).map f).flatten = ((chunks k l).zipIdx n).map f := by
  have hkd : 0 < k + d := by omega
  induction l using chunk_induction hk generalizing n with
  | nil => simp [chunks_nil]
  | step l hl ih =>
    rw [chunks_eq_cons hk hl, List.zipIdx_cons, List.map_cons, List.flatten_cons]
    have hhead : (f (l.take k, n)).length = min k l.length + d := by
      rw [hf, List.length_take]
    rcases Nat.le_total l.length k with hshort | hlong
    · rw [List.drop_eq_nil_of_le hshort, chunks_nil]
      simp only [List.zipIdx_nil, List.map_nil, List.flatten_nil, List.append_nil]
      exact chunks_of_length_le (by omega) (by omega)
    · have hlength : (f (l.take k, n)).length = k + d := by omega
      rw [chunks_eq_cons hkd (by rw [List.length_append]; omega), List.take_left' hlength,
        List.drop_left' hlength, ih]

theorem length_le_of_mem_chunks {k : Nat} {l c : List α} (hc : c ∈ chunks k l) :
    c.length ≤ k ∧ c.length ≤ l.length := by
  obtain ⟨i, _, rfl⟩ := List.mem_map.mp hc
  simp only [List.length_take, List.length_drop]
  omega

theorem length_pos_of_mem_chunks {k : Nat} {l c : List α} (hk : 0 < k) (hc : c ∈ chunks k l) :
    0 < c.length := by
  obtain ⟨i, hi, rfl⟩ := List.mem_map.mp hc
  have hlt := (lt_chunkCount_iff hk).mp (List.mem_range.mp hi)
  simp only [List.length_take, List.length_drop]
  omega

theorem slice_min (l : List α) (offset k : Nat) :
    (l.take (offset + min (l.length - offset) k)).drop offset = (l.drop offset).take k := by
  rw [List.drop_take, Nat.add_sub_cancel_left]
  rcases Nat.le_total k (l.length - offset) with h | h
  · rw [Nat.min_eq_right h]
  · rw [Nat.min_eq_left h, List.take_of_length_le (by simp), List.take_of_length_le (by simpa using h)]

theorem drop_min (l : List α) (offset k : Nat) :
    l.drop (offset + min (l.length - offset) k) = (l.drop offset).drop k := by
  rw [List.drop_drop]
  rcases Nat.le_total k (l.length - offset) with h | h
  · rw [Nat.min_eq_right h]
  · rw [List.drop_eq_nil_of_le (by omega), List.drop_eq_nil_of_le (by omega)]

end Hysteria.Lib
