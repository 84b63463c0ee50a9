import Mathlib.Tactic.Common

/-! Systems of several tasks that take atomic steps in any order. A step function
says what an event does to the state, or that the event cannot happen there; a run
is a list of events that could each happen when it was their turn. -/
namespace Hysteria.Lib

variable {σ : Type u} {ε : Type v} (step : σ → ε → Option σ)

def run : σ → List ε → Option σ
  | s, [] => some s
  | s, e :: es => (step s e).bind fun s => run s es

/-- Every step a list of events takes has the property. -/
def Along (P : σ → ε → σ → Prop) : σ → List ε → Prop
  | _, [] => True
  | s, e :: es => ∀ s', step s e = some s' → P s e s' ∧ Along P s' es

variable {step}

theorem run_cons {s t : σ} {e : ε} {es : List ε} :
    run step s (e :: es) = some t ↔ ∃ s', step s e = some s' ∧ run step s' es = some t :=
  Option.bind_eq_some_iff

theorem run_append {s t u : σ} {es es' : List ε} (h : run step s es = some t) (h' : run step t es' = some u) :
    run step s (es ++ es') = some u := by
  induction es generalizing s with
  | nil =>
    cases h
    exact h'
  | cons e es ih =>
    obtain ⟨next, he, hrest⟩ := run_cons.mp h
    exact run_cons.mpr ⟨next, he, ih hrest⟩

theorem run_induction {I : σ → Prop} (hstep : ∀ s e s', I s → step s e = some s' → I s') {s t : σ}
    {es : List ε} (hs : I s) (hrun : run step s es = some t) : I t := by
  induction es generalizing s with
  | nil =>
    cases hrun
    exact hs
  | cons e es ih =>
    obtain ⟨s', he, hrest⟩ := run_cons.mp hrun
    exact ih (hstep s e s' hs he) hrest

/-- An invariant that refers to a history as it will be in the end; histories only grow. -/
theorem run_induction_history {α : Type w} {history : σ → List α} {I : List α → σ → Prop}
    (hgrows : ∀ s e s', step s e = some s' → history s ⊆ history s')
    (hstep : ∀ final s e s', I final s → step s e = some s' → history s' ⊆ final → I final s') {s t : σ} {es : List ε}
    (hs : ∀ final, I final s) (hrun : run step s es = some t) : I (history t) t := by
  have hall : history t ⊆ history t → I (history t) t :=
    run_induction (I := fun s => history s ⊆ history t → I (history t) s)
      (fun s e s' hold he hsubset => hstep _ s e s' (hold (List.Subset.trans (hgrows s e s' he) hsubset)) he hsubset)
      (fun _ => hs _) hrun
  exact hall (List.Subset.refl _)

theorem run_induction_along {I : σ → Prop} {P : σ → ε → σ → Prop}
    (hstep : ∀ s e s', I s → step s e = some s' → P s e s' → I s') {s t : σ} {es : List ε}
    (hs : I s) (halong : Along step P s es) (hrun : run step s es = some t) : I t := by
  induction es generalizing s with
  | nil =>
    cases hrun
    exact hs
  | cons e es ih =>
    obtain ⟨s', he, hrest⟩ := run_cons.mp hrun
    obtain ⟨hP, hP'⟩ := halong s' he
    exact ih (hstep s e s' hs he hP) hP' hrest

theorem along_of_inv {I : σ → Prop} {P Q : σ → ε → σ → Prop}
    (hstep : ∀ s e s', I s → step s e = some s' → P s e s' → I s' ∧ Q s e s') {s : σ}
    {es : List ε} (hs : I s) (halong : Along step P s es) : Along step Q s es := by
  induction es generalizing s with
  | nil => trivial
  | cons e es ih =>
    intro s' he
    obtain ⟨hP, hP'⟩ := halong s' he
    obtain ⟨hI, hQ⟩ := hstep s e s' hs he hP
    exact ⟨hQ, ih hI hP'⟩

/-- A property that a step keeps or loses by what it does: it holds along the whole run exactly
if no step loses it. -/
theorem along_iff {I L : σ → Prop} {Q : σ → ε → Prop}
    (hstep : ∀ s e s', I s → step s e = some s' → I s' ∧ (L s → (L s' ↔ Q s e))) {s : σ} {es : List ε}
    (hI : I s) (hL : L s) :
    Along step (fun _ _ s' => L s') s es ↔ Along step (fun s e _ => Q s e) s es := by
  induction es generalizing s with
  | nil => exact Iff.rfl
  | cons e es ih =>
    refine forall_congr' fun s' => forall_congr' fun he => ?_
    obtain ⟨hI', hkeeps⟩ := hstep s e s' hI he
    constructor
    · rintro ⟨hL', hrest⟩
      exact ⟨(hkeeps hL).mp hL', (ih hI' hL').mp hrest⟩
    · rintro ⟨hQ, hrest⟩
      have hL' := (hkeeps hL).mpr hQ
      exact ⟨hL', (ih hI' hL').mpr hrest⟩

end Hysteria.Lib
