import Hysteria.Lib.Text

/-! Readers that take a value from the front of a text, and the readers of characters and
numbers from which Rust's `core::net` puts together its parsers of addresses. -/
namespace Hysteria.Lib

/-- A reader that fails takes nothing. -/
abbrev Reader := StateT Text Option

namespace Reader
variable {α β : Type} {text rest : Text}

@[simp] theorem pure_apply (a : α) : (pure a : Reader α) text = some (a, text) := rfl

theorem bind_apply (x : Reader α) (f : α → Reader β) : (x >>= f) text = (x text).bind fun (a, rest) => f a rest := rfl

theorem orElse_apply (x y : Reader α) : (x <|> y) text = (x text <|> y text) := rfl

theorem of_orElse {x y : Reader α} {taken : α × Text} (h : (x <|> y) text = some taken) :
    x text = some taken ∨ y text = some taken := by
  rw [orElse_apply] at h
  cases hread : x text with
  | none =>
    rw [hread] at h
    exact .inr h
  | some first =>
    rw [hread] at h
    exact .inl h

theorem bind_of_eq {x : Reader α} {a : α} (h : x text = some (a, rest)) (f : α → Reader β) :
    (x >>= f) text = f a rest := by
  rw [bind_apply, h]
  rfl

theorem bind_of_none {x : Reader α} (h : x text = none) (f : α → Reader β) : (x >>= f) text = none := by
  rw [bind_apply, h]
  rfl

theorem bind_eq_some {x : Reader α} {f : α → Reader β} {b : β} :
    (x >>= f) text = some (b, rest) ↔ ∃ a between, x text = some (a, between) ∧ f a between = some (b, rest) := by
  rw [bind_apply, Option.bind_eq_some_iff, Prod.exists]

/-- `parse_with`: nothing may be left. -/
def whole (reader : Reader α) (text : Text) : Option α :=
  match reader text with
  | some (a, []) => some a
  | _ => none

theorem whole_eq_some_iff {reader : Reader α} {a : α} : whole reader text = some a ↔ reader text = some (a, []) := by
  rw [whole]
  split
  · next taken hread => simp [hread]
  · next hleft =>
    constructor
    · nofun
    · exact fun h => absurd h (hleft a)

theorem whole_of_none {reader : Reader α} (h : reader text = none) : whole reader text = none := by
  rw [whole, h]

/-- With `rest` behind it a text is read as before, and `rest` is left. -/
def Spares (rest : Text) (reader : Reader α) : Prop :=
  ∀ text, reader (text ++ rest) = (reader text).map fun taken => (taken.1, taken.2 ++ rest)

theorem Spares.pure (a : α) : Spares rest (Pure.pure a) := fun _ => rfl

theorem Spares.failure : Spares rest (Alternative.failure : Reader α) := fun _ => rfl

theorem Spares.bind {x : Reader α} {f : α → Reader β} (hx : Spares rest x) (hf : ∀ a, Spares rest (f a)) :
    Spares rest (x >>= f) := by
  intro text
  rw [bind_apply, bind_apply, hx text]
  cases x text with
  | none => rfl
  | some taken => exact hf taken.1 taken.2

theorem Spares.orElse {x y : Reader α} (hx : Spares rest x) (hy : Spares rest y) : Spares rest (x <|> y) := by
  intro text
  rw [orElse_apply, orElse_apply, hx text]
  cases x text with
  | none => exact hy text
  | some taken => rfl

theorem Spares.ite {x y : Reader α} (p : Prop) [Decidable p] (hx : Spares rest x) (hy : Spares rest y) :
    Spares rest (if p then x else y) := by
  split
  · exact hx
  · exact hy

theorem Spares.of_whole {reader : Reader α} {a : α} (h : Spares rest reader) (hread : whole reader text = some a) :
    reader (text ++ rest) = some (a, rest) := by
  rw [h text, whole_eq_some_iff.mp hread]
  rfl

def Takes (P : Char → Prop) (reader : Reader α) : Prop :=
  ∀ ⦃text a rest⦄, reader text = some (a, rest) → ∃ taken, text = taken ++ rest ∧ ∀ c ∈ taken, P c

section Takes
variable {P : Char → Prop}

theorem Takes.pure (a : α) : Takes P (Pure.pure a) := by
  intro text b rest h
  cases h
  exact ⟨[], rfl, nofun⟩

theorem Takes.failure : Takes P (Alternative.failure : Reader α) := nofun

theorem Takes.bind {x : Reader α} {f : α → Reader β} (hx : Takes P x) (hf : ∀ a, Takes P (f a)) :
    Takes P (x >>= f) := by
  intro text b rest h
  obtain ⟨a, between, hfirst, hsecond⟩ := bind_eq_some.mp h
  obtain ⟨first, rfl, hP⟩ := hx hfirst
  obtain ⟨second, rfl, hQ⟩ := hf a hsecond
  exact ⟨first ++ second, (List.append_assoc _ _ _).symm, List.forall_mem_append.mpr ⟨hP, hQ⟩⟩

theorem Takes.orElse {x y : Reader α} (hx : Takes P x) (hy : Takes P y) : Takes P (x <|> y) := by
  intro text a rest h
  rcases of_orElse h with h | h
  · exact hx h
  · exact hy h

theorem Takes.ite {x y : Reader α} (p : Prop) [Decidable p] (hx : Takes P x) (hy : Takes P y) :
    Takes P (if p then x else y) := by
  split
  · exact hx
  · exact hy

theorem Takes.mono {Q : Char → Prop} {reader : Reader α} (h : Takes P reader) (hPQ : ∀ c, P c → Q c) :
    Takes Q reader := by
  intro text a rest hread
  obtain ⟨taken, htext, hP⟩ := h hread
  exact ⟨taken, htext, fun c hc => hPQ c (hP c hc)⟩

theorem Takes.of_whole {reader : Reader α} {a : α} (h : Takes P reader) (hread : whole reader text = some a) :
    ∀ c ∈ text, P c := by
  obtain ⟨taken, htext, hP⟩ := h (whole_eq_some_iff.mp hread)
  rwa [htext, List.append_nil]

end Takes

/-- `read_given_char` -/
def given (c : Char) : Reader Unit := fun text =>
  match text with
  | [] => none
  | d :: rest => if d = c then some ((), rest) else none

@[simp] theorem given_cons (c : Char) : given c (c :: rest) = some ((), rest) := if_pos rfl

theorem given_eq_some_iff {c : Char} : given c text = some ((), rest) ↔ text = c :: rest := by
  cases text with
  | nil => simp [given]
  | cons d text =>
    simp only [given, Option.ite_none_right_eq_some, Option.some.injEq, Prod.mk.injEq, true_and, List.cons.injEq]

theorem given_of_head {c : Char} (h : text.head? ≠ some c) : given c text = none := by
  cases text with
  | nil => rfl
  | cons d text => exact if_neg fun hd => h (congrArg some hd)

theorem spares_given {c : Char} (h : rest.head? ≠ some c) : Spares rest (given c) := by
  intro text
  cases text with
  | nil => exact given_of_head h
  | cons d text =>
    simp only [List.cons_append, given]
    split <;> rfl

theorem takes_given {P : Char → Prop} {c : Char} (h : P c) : Takes P (given c) := by
  intro text a rest hread
  exact ⟨[c], given_eq_some_iff.mp hread, List.forall_mem_singleton.mpr h⟩

def isDigit (radix : Nat) (c : Char) : Bool := (toDigit radix c).isSome

def Stops (radix : Nat) (text : Text) : Prop := ∀ c ∈ text.head?, isDigit radix c = false

theorem stops_nil {radix : Nat} : Stops radix [] := nofun

theorem stops_cons {radix : Nat} {c : Char} (h : isDigit radix c = false) : Stops radix (c :: text) := by
  rintro d ⟨⟩
  exact h

theorem Stops.takeWhile {radix : Nat} (h : Stops radix text) : text.takeWhile (isDigit radix) = [] := by
  cases text with
  | nil => rfl
  | cons c rest => rw [List.takeWhile_cons, h c rfl, if_neg Bool.false_ne_true]

theorem Stops.dropWhile {radix : Nat} (h : Stops radix text) : text.dropWhile (isDigit radix) = text := by
  cases text with
  | nil => rfl
  | cons c rest => rw [List.dropWhile_cons, h c rfl, if_neg Bool.false_ne_true]

/-- The numbers that `read_number` is called for: the radix, the digits it may have, whether zeros
may stand in front, and the bound of the type. -/
structure Format where
  radix : Nat
  maxDigits : Option Nat
  allowZeroPrefix : Bool
  bound : Nat

def Format.value (format : Format) (digits : Text) : Option Nat :=
  if format.maxDigits.any (· < digits.length) then none
  else if !format.allowZeroPrefix && digits.head? = some '0' && 1 < digits.length then none
  else (numeral format.radix digits).filter (· < format.bound)

/-- `read_number` -/
def number (format : Format) : Reader Nat := fun text =>
  (format.value (text.takeWhile (isDigit format.radix))).map (·, text.dropWhile (isDigit format.radix))

variable {format : Format} {digits : Text} {n : Nat}

theorem Format.numeral_of_value (h : format.value digits = some n) :
    numeral format.radix digits = some n ∧ n < format.bound := by
  rw [value] at h
  split_ifs at h
  rw [Option.filter_eq_some_iff, decide_eq_true_iff] at h
  exact h

theorem Format.isDigit_of_value (h : format.value digits = some n) : ∀ c ∈ digits, isDigit format.radix c :=
  (numeral_digits (numeral_of_value h).1).2

theorem number_append (h : format.value digits = some n) (hrest : Stops format.radix rest) :
    number format (digits ++ rest) = some (n, rest) := by
  have hdigits := format.isDigit_of_value h
  rw [number, List.takeWhile_append_of_pos hdigits, List.dropWhile_append_of_pos hdigits, hrest.takeWhile,
    hrest.dropWhile, List.append_nil, h]
  rfl

theorem number_of_stops (h : Stops format.radix text) : number format text = none := by
  have hvalue : format.value [] = none := by simp [Format.value, numeral]
  rw [number, h.takeWhile, hvalue]
  rfl

theorem number_eq_some (h : number format text = some (n, rest)) :
    ∃ digits, text = digits ++ rest ∧ format.value digits = some n := by
  obtain ⟨m, hvalue, hread⟩ := Option.map_eq_some_iff.mp h
  cases hread
  exact ⟨_, List.takeWhile_append_dropWhile.symm, hvalue⟩

theorem spares_number (hrest : Stops format.radix rest) : Spares rest (number format) := by
  intro text
  have htake : (text ++ rest).takeWhile (isDigit format.radix) = text.takeWhile (isDigit format.radix) := by
    rw [List.takeWhile_append, hrest.takeWhile, List.append_nil]
    split
    · next hall => exact (List.IsPrefix.eq_of_length ( List.takeWhile_prefix _) hall).symm
    · rfl
  have hdrop : (text ++ rest).dropWhile (isDigit format.radix) = text.dropWhile (isDigit format.radix) ++ rest := by
    rw [List.dropWhile_append, hrest.dropWhile]
    split
    · next hall => rw [List.isEmpty_iff.mp hall, List.nil_append]
    · rfl
  rw [number, number, htake, hdrop, Option.map_map]
  rfl

theorem takes_number {P : Char → Prop} (h : ∀ c, isDigit format.radix c → P c) : Takes P (number format) := by
  intro text n rest hread
  obtain ⟨digits, htext, hvalue⟩ := number_eq_some hread
  exact ⟨digits, htext, fun c hc => h c (Format.isDigit_of_value hvalue c hc)⟩

end Reader
end Hysteria.Lib
