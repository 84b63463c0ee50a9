import Mathlib.Data.List.Basic

/-! Loops over a stream of inputs that may end early. -/
namespace Hysteria.Lib

/-- What the body of a loop does with one input: go on with a new state, or end the loop. -/
inductive Flow (σ : Type u) (ε : Type v) where
  | next (s : σ)
  | stop (s : σ) (err : ε)

/-- The state after the inputs, and the error that ended the loop if one did. -/
def loop (body : σ → ι → Flow σ ε) : σ → List ι → σ × Option ε
  | s, [] => (s, none)
  | s, x :: xs =>
    match body s x with
    | .next s => loop body s xs
    | .stop s err => (s, some err)

variable {body : σ → ι → Flow σ ε} {I : σ → Prop}

theorem loop_next {s s' : σ} {x : ι} (h : body s x = .next s') (xs : List ι) :
    loop body s (x :: xs) = loop body s' xs := by
  rw [loop, h]

theorem loop_stop {s s' : σ} {x : ι} {err : ε} (h : body s x = .stop s' err) (xs : List ι) :
    loop body s (x :: xs) = (s', some err) := by
  rw [loop, h]

theorem loop_filter (keep : ι → Bool) (hinv : ∀ s x s', I s → body s x = .next s' → I s') {s : σ}
    (hs : I s) {xs : List ι}
    (hskip : ∀ s x, I s → x ∈ xs → keep x = false → body s x = .next s) :
    loop body s (xs.filter keep) = loop body s xs := by
  induction xs generalizing s with
  | nil => rfl
  | cons x xs ih =>
    have htail : ∀ s y, I s → y ∈ xs → keep y = false → body s y = .next s := by
      intro s y hs hmem
      exact hskip s y hs (List.mem_cons_of_mem x hmem)
    cases hkeep : keep x with
    | false =>
      rw [List.filter_cons_of_neg (by simp [hkeep]), loop_next (hskip s x hs List.mem_cons_self hkeep)]
      exact ih hs htail
    | true =>
      rw [List.filter_cons_of_pos hkeep]
      cases hbody : body s x with
      | next s' =>
        rw [loop_next hbody, loop_next hbody]
        exact ih (hinv s x s' hs hbody) htail
      | stop s' err => rw [loop_stop hbody, loop_stop hbody]

theorem loop_open (hinv : ∀ s x s', I s → body s x = .next s' → I s') {s : σ} (hs : I s)
    {xs : List ι} (hnext : ∀ s x, I s → x ∈ xs → ∃ s', body s x = .next s') :
    (loop body s xs).2 = none := by
  induction xs generalizing s with
  | nil => rfl
  | cons x xs ih =>
    obtain ⟨s', hbody⟩ := hnext s x hs List.mem_cons_self
    rw [loop_next hbody]
    apply ih (hinv s x s' hs hbody)
    intro s y hs hmem
    exact hnext s y hs (List.mem_cons_of_mem x hmem)

theorem loop_closed (hinv : ∀ s x s', I s → body s x = .next s' → I s') {s : σ} (hs : I s)
    {xs : List ι} {x : ι} (hmem : x ∈ xs) (hstop : ∀ s, I s → ∃ s' err, body s x = .stop s' err) :
    (loop body s xs).2 ≠ none := by
  induction xs generalizing s with
  | nil => cases hmem
  | cons y xs ih =>
    cases hbody : body s y with
    | stop s' err =>
      rw [loop_stop hbody]
      nofun
    | next s' =>
      rw [loop_next hbody]
      apply ih (hinv s y s' hs hbody)
      rcases List.mem_cons.mp hmem with rfl | htail
      · obtain ⟨_, _, hx⟩ := hstop s hs
        rw [hx] at hbody
        cases hbody
      · exact htail

/-- A loop ends with an error of the kind `E` at the first of its inputs that does not pass, where that one
fails. -/
theorem loop_fails_iff {Passed Failed : ι → Prop} {E : ε → Prop} {I : σ → List ι → Prop}
    (hbody : ∀ s x xs, I s (x :: xs) → (Passed x ∧ ∃ s', body s x = .next s' ∧ I s' xs) ∨
      (¬ Passed x ∧ ∃ s' err, body s x = .stop s' err ∧ (E err ↔ Failed x)))
    (hpassed : ∀ x, Passed x → ¬ Failed x) {s : σ} {xs : List ι} (hs : I s xs) :
    (∃ err, (loop body s xs).2 = some err ∧ E err) ↔
      ∃ before x after, xs = before ++ x :: after ∧ (∀ y ∈ before, Passed y) ∧ Failed x := by
  induction xs generalizing s with
  | nil => simp [loop]
  | cons x xs ih =>
    obtain ⟨hx, s', hnext, hs'⟩ | ⟨hx, s', err, hstop, herr⟩ := hbody s x xs hs
    · rw [loop_next hnext, ih hs']
      constructor
      · rintro ⟨before, y, after, rfl, hbefore, hy⟩
        exact ⟨x :: before, y, after, rfl, List.forall_mem_cons.mpr ⟨hx, hbefore⟩, hy⟩
      · rintro ⟨before, y, after, hsplit, hbefore, hy⟩
        cases before with
        | nil =>
          obtain ⟨rfl, -⟩ := List.cons.inj hsplit
          exact absurd hy (hpassed x hx)
        | cons z before =>
          obtain ⟨rfl, hrest⟩ := List.cons.inj hsplit
          exact ⟨before, y, after, hrest, (List.forall_mem_cons.mp hbefore).2, hy⟩
    · rw [loop_stop hstop]
      simp only [Option.some.injEq, exists_eq_left', herr]
      constructor
      · exact fun hfailed => ⟨[], x, xs, rfl, List.forall_mem_nil _, hfailed⟩
      · rintro ⟨before, y, after, hsplit, hbefore, hy⟩
        cases before with
        | nil =>
          obtain ⟨rfl, -⟩ := List.cons.inj hsplit
          exact hy
        | cons z before =>
          obtain ⟨rfl, -⟩ := List.cons.inj hsplit
          exact absurd (hbefore x List.mem_cons_self) hx

end Hysteria.Lib
