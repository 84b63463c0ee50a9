import Mathlib.Algebra.Group.Nat.Defs
import Mathlib.Data.List.Forall2
import Mathlib.Tactic.Common

/-! Outcomes of checked code. A call returns a value, returns an error value,
or fails one of the checks the language itself makes. Errors and panics both
end the call, so they share one exception type and keep their difference in it. -/
namespace Hysteria.Lib

inductive Panic where
  | indexOutOfRange
  | sliceOutOfRange
  | arithmeticOverflow
  | divisionByZero
  | expectFailed
deriving DecidableEq, Repr

inductive Fault (ε : Type u) where
  | panic (why : Panic)
  | error (value : ε)
deriving DecidableEq, Repr

abbrev Exec (ε : Type u) (α : Type v) := Except (Fault ε) α

/-- Integer overflow is a panic in a build with overflow checks and wraps
around in one without; everything else is the same in both. -/
structure Profile where
  overflowChecks : Bool
deriving DecidableEq, Repr

def usizeSize : Nat := 2 ^ 64

/-- No allocation, hence no slice, spans more than `isize::MAX` bytes. -/
def isizeMax : Nat := 2 ^ 63 - 1

def overflow (profile : Profile) (wrapped : α) : Exec ε α :=
  if profile.overflowChecks then .error (.panic .arithmeticOverflow) else .ok wrapped

def addUsize (profile : Profile) (a b : Nat) : Exec ε Nat :=
  if a + b < usizeSize then .ok (a + b) else overflow profile ((a + b) % usizeSize)

def subUsize (profile : Profile) (a b : Nat) : Exec ε Nat :=
  if b ≤ a then .ok (a - b) else overflow profile (a + usizeSize - b)

def mulUsize (profile : Profile) (a b : Nat) : Exec ε Nat :=
  if a * b < usizeSize then .ok (a * b) else overflow profile (a * b % usizeSize)

def addU8 (profile : Profile) (a b : UInt8) : Exec ε UInt8 :=
  if a.toNat + b.toNat < 256 then .ok (a + b) else overflow profile (a + b)

/-- Round-up division of unsigned integers, which panics on a zero divisor. -/
def divCeil (a b : Nat) : Exec ε Nat :=
  if b = 0 then .error (.panic .divisionByZero) else .ok ((a + b - 1) / b)

def index (xs : List α) (i : Nat) : Exec ε α :=
  match xs[i]? with
  | some x => .ok x
  | none => .error (.panic .indexOutOfRange)

def setIndex (xs : List α) (i : Nat) (x : α) : Exec ε (List α) :=
  if i < xs.length then .ok (xs.set i x) else .error (.panic .indexOutOfRange)

def slice (xs : List α) (start stop : Nat) : Exec ε (List α) :=
  if start ≤ stop ∧ stop ≤ xs.length then .ok ((xs.take stop).drop start)
  else .error (.panic .sliceOutOfRange)

def splice (xs : List α) (start : Nat) (src : List α) : List α :=
  xs.take start ++ src ++ xs.drop (start + src.length)

/-- `xs[start..start + src.len()].copy_from_slice(src)` -/
def writeSlice (xs : List α) (start : Nat) (src : List α) : Exec ε (List α) :=
  if start + src.length ≤ xs.length then .ok (splice xs start src)
  else .error (.panic .sliceOutOfRange)

def expect : Option α → Exec ε α
  | some a => .ok a
  | none => .error (.panic .expectFailed)

@[simp] theorem ok_bind (a : α) (f : α → Exec ε β) : (Except.ok a : Exec ε α) >>= f = f a := rfl

theorem error_bind (fault : Fault ε) (f : α → Exec ε β) :
    (Except.error fault : Exec ε α) >>= f = .error fault := rfl

theorem pure_bind_ok (a : α) (f : α → Exec ε β) : (pure a : Exec ε α) >>= f = f a := rfl

theorem addUsize_ok (profile : Profile) {a b : Nat} (h : a + b < usizeSize) :
    (addUsize profile a b : Exec ε Nat) = .ok (a + b) := if_pos h

theorem subUsize_ok (profile : Profile) {a b : Nat} (h : b ≤ a) :
    (subUsize profile a b : Exec ε Nat) = .ok (a - b) := if_pos h

theorem mulUsize_ok (profile : Profile) {a b : Nat} (h : a * b < usizeSize) :
    (mulUsize profile a b : Exec ε Nat) = .ok (a * b) := if_pos h

theorem addU8_ok (profile : Profile) {a b : UInt8} (h : a.toNat + b.toNat < 256) :
    (addU8 profile a b : Exec ε UInt8) = .ok (a + b) := if_pos h

theorem divCeil_ok (a : Nat) {b : Nat} (h : 0 < b) :
    (divCeil a b : Exec ε Nat) = .ok ((a + b - 1) / b) := if_neg (Nat.ne_of_gt h)

theorem index_ok {xs : List α} {i : Nat} {x : α} (h : xs[i]? = some x) :
    (index xs i : Exec ε α) = .ok x := by
  simp [index, h]

theorem setIndex_ok {xs : List α} {i : Nat} (h : i < xs.length) (x : α) :
    (setIndex xs i x : Exec ε (List α)) = .ok (xs.set i x) := if_pos h

theorem slice_ok {xs : List α} {start stop : Nat} (h₁ : start ≤ stop) (h₂ : stop ≤ xs.length) :
    (slice xs start stop : Exec ε (List α)) = .ok ((xs.take stop).drop start) := if_pos ⟨h₁, h₂⟩

theorem writeSlice_ok {xs src : List α} {start : Nat} (h : start + src.length ≤ xs.length) :
    (writeSlice xs start src : Exec ε (List α)) = .ok (splice xs start src) := if_pos h

/-- A buffer whose first bytes have been overwritten by `written`. -/
def overlay (written buf : List α) : List α := written ++ buf.drop written.length

theorem overlay_nil (buf : List α) : overlay [] buf = buf := rfl

theorem length_overlay {written buf : List α} (h : written.length ≤ buf.length) :
    (overlay written buf).length = buf.length := by
  simp only [overlay, List.length_append, List.length_drop]
  omega

theorem take_overlay {written : List α} (buf : List α) {n : Nat} (hn : written.length = n) :
    (overlay written buf).take n = written := List.take_left' hn

theorem drop_overlay {written : List α} (buf : List α) {n : Nat} (hn : written.length ≤ n) :
    (overlay written buf).drop n = buf.drop n := by
  rw [overlay, List.drop_append, List.drop_eq_nil_of_le hn, List.drop_drop, List.nil_append,
    Nat.add_sub_cancel' hn]

theorem overlay_append (written src buf : List α) :
    written ++ overlay src (buf.drop written.length) = overlay (written ++ src) buf := by
  simp only [overlay, List.drop_drop, List.append_assoc, List.length_append]

theorem writeSlice_overlay {written src buf : List α} {start : Nat} (hstart : written.length = start)
    (h : start + src.length ≤ buf.length) :
    (writeSlice (overlay written buf) start src : Exec ε (List α)) =
      .ok (overlay (written ++ src) buf) := by
  have hlen := length_overlay (show written.length ≤ buf.length by omega)
  rw [writeSlice_ok (by omega), splice, take_overlay buf hstart]
  subst hstart
  simp [overlay, List.drop_append]

theorem writeSlice_zero {src buf : List α} (h : src.length ≤ buf.length) :
    (writeSlice buf 0 src : Exec ε (List α)) = .ok (overlay src buf) :=
  writeSlice_overlay (show ([] : List α).length = 0 from rfl) (by omega)

theorem setIndex_overlay {written buf : List α} {i : Nat} (hi : written.length = i) (x : α)
    (h : i < buf.length) :
    (setIndex (overlay written buf) i x : Exec ε (List α)) = .ok (overlay (written ++ [x]) buf) := by
  subst hi
  have hdrop : buf.drop written.length = buf[written.length] :: buf.drop (written.length + 1) :=
    List.drop_eq_getElem_cons h
  rw [setIndex_ok (by rw [length_overlay (by omega)]; exact h), overlay, hdrop,
    List.set_append_right _ _ (Nat.le_refl _), Nat.sub_self, List.set_cons_zero]
  simp [overlay]

theorem slice_overlay {written buf : List α} {start stop : Nat} (hstart : written.length ≤ start)
    (hle : start ≤ stop) (hstop : stop ≤ buf.length) :
    (slice (overlay written buf) start stop : Exec ε (List α)) = .ok ((buf.take stop).drop start) := by
  have hlen := length_overlay (show written.length ≤ buf.length by omega)
  rw [slice_ok hle (by omega), List.drop_take, List.drop_take, drop_overlay buf hstart]

theorem slice_append {before mid after : List α} {start stop : Nat} (hstart : before.length = start)
    (hstop : start + mid.length = stop) :
    (slice (before ++ mid ++ after) start stop : Exec ε (List α)) = .ok mid := by
  subst hstart hstop
  rw [slice_ok (by omega) (by simp), ← List.length_append, List.take_left, List.drop_left]

theorem writeSlice_append {before old src after : List α} {start : Nat} (hstart : before.length = start)
    (hlength : src.length = old.length) :
    (writeSlice (before ++ (old ++ after)) start src : Exec ε (List α)) = .ok (before ++ (src ++ after)) := by
  subst hstart
  rw [writeSlice_ok (by simp [hlength])]
  simp [splice, hlength]

theorem index_append {before after : List α} {i : Nat} (hi : before.length = i) (x : α) :
    (index (before ++ x :: after) i : Exec ε α) = .ok x := by
  subst hi
  exact index_ok (by simp)

theorem bind_eq_ok {x : Except ε α} {f : α → Except ε β} {b : β} :
    x >>= f = .ok b ↔ ∃ a, x = .ok a ∧ f a = .ok b := by
  constructor
  · intro h
    match x, h with
    | .ok a, h => exact ⟨a, rfl, h⟩
  · rintro ⟨a, rfl, h⟩
    exact h

theorem bind_eq_error {x : Exec ε α} {f : α → Exec ε β} {fault : Fault ε} :
    x >>= f = .error fault ↔ x = .error fault ∨ ∃ a, x = .ok a ∧ f a = .error fault := by
  cases x with
  | error other => simp [error_bind]
  | ok a => simp

theorem ok_of_toOption {x : Exec ε α} {f : α → β} {b : β} (h : x.toOption.map f = some b) :
    ∃ a, x = .ok a ∧ f a = b := by
  cases x with
  | error fault => cases h
  | ok a => exact ⟨a, rfl, Option.some.inj h⟩

theorem mapM_eq_ok {f : α → Exec ε β} {l : List α} {l' : List β} :
    l.mapM f = .ok l' ↔ List.Forall₂ (fun a b => f a = .ok b) l l' := by
  constructor
  · intro h
    induction l generalizing l' with
    | nil =>
      cases h
      exact .nil
    | cons a l ih =>
      rw [List.mapM_cons] at h
      obtain ⟨b, hhead, h⟩ := bind_eq_ok.mp h
      obtain ⟨tail, htail, h⟩ := bind_eq_ok.mp h
      cases h
      exact .cons hhead (ih htail)
  · intro h
    induction h with
    | nil => rfl
    | cons hhead _ ih =>
      rw [List.mapM_cons, hhead, ok_bind, ih]
      rfl

theorem foldlM_append_ok {f : List β → α → Exec ε (List β)} {g : α → List β} {l : List α}
    (h : ∀ acc, ∀ a ∈ l, f acc a = .ok (acc ++ g a)) (acc : List β) :
    l.foldlM f acc = .ok (acc ++ (l.map g).flatten) := by
  induction l generalizing acc with
  | nil => simp [pure, Except.pure]
  | cons a l ih =>
    rw [List.foldlM_cons, h acc a (by simp), ok_bind,
      ih fun acc b hb => h acc b (List.mem_cons_of_mem _ hb)]
    simp

theorem foldlM_induction {f : β → α → Except ε β} {I : β → Prop} {l : List α}
    (hstep : ∀ a ∈ l, ∀ s s', I s → f s a = .ok s' → I s') {s t : β} (hs : I s) (h : l.foldlM f s = .ok t) : I t := by
  induction l generalizing s with
  | nil =>
    cases h
    exact hs
  | cons a l ih =>
    rw [List.foldlM_cons] at h
    obtain ⟨next, hnext, h⟩ := bind_eq_ok.mp h
    exact ih (fun b hb => hstep b (List.mem_cons_of_mem a hb)) (hstep a List.mem_cons_self s next hs hnext) h

/-- A part `p` of the state goes through a loop of its own, over what it gets of the elements. -/
theorem foldlM_part {f : β → α → Except ε β} {g : γ → δ → Except ε γ} {p : β → γ} {seen : α → Option δ}
    (hstep : ∀ a s s', f s a = .ok s' → (seen a).toList.foldlM g (p s) = .ok (p s')) {l : List α} {s t : β}
    (h : l.foldlM f s = .ok t) : (l.filterMap seen).foldlM g (p s) = .ok (p t) := by
  induction l generalizing s with
  | nil =>
    cases h
    rfl
  | cons a l ih =>
    rw [List.foldlM_cons] at h
    obtain ⟨next, hnext, h⟩ := bind_eq_ok.mp h
    have hparts : (a :: l).filterMap seen = (seen a).toList ++ l.filterMap seen := by
      cases hseen : seen a <;> simp [hseen]
    rw [hparts, List.foldlM_append, hstep a s next hnext]
    exact ih h

/-- A loop returns if every turn does, in a state that fits what the loop has gone through so far. -/
theorem foldlM_ok_of_history {f : β → α → Except ε β} {I : List α → β → Prop} {l : List α}
    (hstep : ∀ before a after s, l = before ++ a :: after → I before s →
      ∃ s', f s a = .ok s' ∧ I (before ++ [a]) s') {s : β} (hs : I [] s) :
    ∃ t, l.foldlM f s = .ok t ∧ I l t := by
  suffices hfrom : ∀ rest before s, l = before ++ rest → I before s → ∃ t, rest.foldlM f s = .ok t ∧ I l t from
    hfrom l [] s rfl hs
  intro rest
  induction rest with
  | nil =>
    intro before s hl hs
    rw [List.append_nil] at hl
    exact ⟨s, rfl, hl ▸ hs⟩
  | cons a rest ih =>
    intro before s hl hs
    obtain ⟨next, hnext, hI⟩ := hstep before a rest s hl hs
    obtain ⟨t, ht, hIt⟩ := ih (before ++ [a]) next (by simpa using hl) hI
    exact ⟨t, by rw [List.foldlM_cons, hnext]; exact ht, hIt⟩

theorem foldlM_range_ok {f : β → Nat → Exec ε β} (state : Nat → β) {n : Nat}
    (hstep : ∀ i < n, f (state i) i = .ok (state (i + 1))) :
    (List.range n).foldlM f (state 0) = .ok (state n) := by
  induction n with
  | zero => rfl
  | succ n ih =>
    rw [List.range_succ, List.foldlM_append, ih fun i hi => hstep i (by omega), ok_bind]
    change f (state n) n >>= pure = _
    rw [hstep n (by omega)]
    rfl

theorem foldlM_range_error {f : β → Nat → Exec ε β} (state : Nat → β) {n : Nat} {fault : Fault ε}
    (hstep : ∀ i < n, f (state i) i = .ok (state (i + 1))) (hlast : f (state n) n = .error fault) :
    (List.range (n + 1)).foldlM f (state 0) = .error fault := by
  rw [List.range_succ, List.foldlM_append, foldlM_range_ok state hstep, ok_bind]
  change f (state n) n >>= pure = _
  rw [hlast]
  rfl

end Hysteria.Lib
