import Hysteria.Lib.Exec

/-! Readers of a byte stream. A reader takes bytes from the front of what is still
unread; a stream that ends too early is an error of the reader's own kind. -/
namespace Hysteria.Lib

abbrev Reads (ε : Type) := StateT (List UInt8) (Exec ε)

variable {ε δ : Type} {α β : Type}

def readExact (eof : ε) (n : Nat) : Reads ε (List UInt8) := fun input =>
  if n ≤ input.length then .ok (input.take n, input.drop n) else .error (.error eof)

/-- `if n > 0` a `read_exact` of `n` bytes; the buffer is empty otherwise. -/
def readUnlessEmpty (eof : ε) (n : Nat) : Reads ε (List UInt8) :=
  if n > 0 then readExact eof n else pure []

/-- An early `return Err(err)` under a condition. -/
def rejectIf (c : Prop) [Decidable c] (err : ε) : Reads ε Unit := fun input =>
  if c then .error (.error err) else .ok ((), input)

/-- `reader? as usize`, on a 64-bit target. -/
def asUsize (x : Reads ε UInt64) : Reads ε Nat := do
  return (← x).toNat

theorem reads_bind (x : Reads ε α) (f : α → Reads ε β) (input : List UInt8) :
    (x >>= f) input = x input >>= fun (a, rest) => f a rest := rfl

theorem reads_bind_ok {x : Reads ε α} {f : α → Reads ε β} {input rest : List UInt8} {a : α}
    (h : x input = .ok (a, rest)) : (x >>= f) input = f a rest := by
  rw [reads_bind, h]
  rfl

theorem reads_bind_error {x : Reads ε α} {f : α → Reads ε β} {input : List UInt8} {fault : Fault ε}
    (h : x input = .error fault) : (x >>= f) input = .error fault := by
  rw [reads_bind, h]
  rfl

theorem readExact_append {eof : ε} {n : Nat} {bytes : List UInt8} (h : bytes.length = n)
    (rest : List UInt8) : readExact eof n (bytes ++ rest) = .ok (bytes, rest) := by
  subst h
  rw [readExact, if_pos (by simp), List.take_left, List.drop_left]

theorem readExact_one (eof : ε) (b : UInt8) (rest : List UInt8) :
    readExact eof 1 (b :: rest) = .ok ([b], rest) := rfl

theorem readExact_add (eof : ε) (m n : Nat) (f : Unit → Reads ε β) :
    (readExact eof (m + n) >>= fun _ => f ()) =
      readExact eof m >>= fun _ => readExact eof n >>= fun _ => f () := by
  funext input
  by_cases hm : m ≤ input.length
  · have hfirst : readExact eof m input = .ok (input.take m, input.drop m) := if_pos hm
    rw [reads_bind_ok hfirst]
    by_cases hn : n ≤ (input.drop m).length
    · have hsecond : readExact eof n (input.drop m) =
          .ok ((input.drop m).take n, (input.drop m).drop n) := if_pos hn
      have hboth : readExact eof (m + n) input = .ok (input.take (m + n), input.drop (m + n)) := by
        rw [List.length_drop] at hn
        exact if_pos (by omega)
      rw [reads_bind_ok hsecond, reads_bind_ok hboth, List.drop_drop]
    · have hsecond : readExact eof n (input.drop m) = .error (.error eof) := if_neg hn
      have hboth : readExact eof (m + n) input = .error (.error eof) := by
        rw [List.length_drop] at hn
        exact if_neg (by omega)
      rw [reads_bind_error hsecond, reads_bind_error hboth]
  · have hfirst : readExact eof m input = .error (.error eof) := if_neg hm
    have hboth : readExact eof (m + n) input = .error (.error eof) := if_neg (by omega)
    rw [reads_bind_error hfirst, reads_bind_error hboth]

theorem asUsize_ok {x : Reads ε UInt64} {input rest : List UInt8} {value : UInt64}
    (h : x input = .ok (value, rest)) : asUsize x input = .ok (value.toNat, rest) := reads_bind_ok h

theorem rejectIf_pos {c : Prop} [Decidable c] (hc : c) (err : ε) (input : List UInt8) :
    rejectIf c err input = .error (.error err) := if_pos hc

theorem rejectIf_neg {c : Prop} [Decidable c] (hc : ¬ c) (err : ε) (input : List UInt8) :
    rejectIf c err input = .ok ((), input) := if_neg hc

theorem readUnlessEmpty_eq (eof : ε) (n : Nat) : readUnlessEmpty eof n = readExact eof n := by
  unfold readUnlessEmpty
  split
  · rfl
  · next h =>
    obtain rfl : n = 0 := by omega
    rfl

def Fault.map (f : ε → δ) : Fault ε → Fault δ
  | .panic why => .panic why
  | .error err => .error (f err)

/-- On every stream the second reader returns what the first returns, with its errors
renamed, and leaves the same bytes unread. -/
def Renames (f : ε → δ) (x : Reads ε α) (y : Reads δ α) : Prop :=
  ∀ input, y input = (x input).mapError (Fault.map f)

theorem renames_pure (f : ε → δ) (a : α) : Renames f (pure a) (pure a) := fun _ => rfl

theorem renames_rejectIf (f : ε → δ) (c : Prop) [Decidable c] (err : ε) :
    Renames f (rejectIf c err) (rejectIf c (f err)) := by
  intro input
  unfold rejectIf
  split <;> rfl

theorem renames_readExact (f : ε → δ) (eof : ε) (n : Nat) :
    Renames f (readExact eof n) (readExact (f eof) n) := by
  intro input
  unfold readExact
  split <;> rfl

theorem Renames.bind {f : ε → δ} {x : Reads ε α} {y : Reads δ α} {g : α → Reads ε β}
    {h : α → Reads δ β} (hxy : Renames f x y) (hgh : ∀ a, Renames f (g a) (h a)) :
    Renames f (x >>= g) (y >>= h) := by
  intro input
  rw [reads_bind, reads_bind, hxy input]
  match x input with
  | .error _ => rfl
  | .ok (a, rest) => exact hgh a rest

theorem Renames.asUsize {f : ε → δ} {x : Reads ε UInt64} {y : Reads δ UInt64} (h : Renames f x y) :
    Renames f (asUsize x) (asUsize y) := h.bind fun value => renames_pure f value.toNat

theorem Renames.ok_iff {f : ε → δ} {x : Reads ε α} {y : Reads δ α} (h : Renames f x y)
    {input : List UInt8} {result : α × List UInt8} :
    y input = .ok result ↔ x input = .ok result := by
  rw [h input]
  match x input with
  | .error _ => exact ⟨nofun, nofun⟩
  | .ok _ => simp [Except.mapError]

theorem Renames.error_iff {f : ε → δ} {x : Reads ε α} {y : Reads δ α} (h : Renames f x y)
    {err : ε} (hf : ∀ err', f err' = f err ↔ err' = err) {input : List UInt8} :
    y input = .error (.error (f err)) ↔ x input = .error (.error err) := by
  rw [h input]
  match x input with
  | .ok _ => exact ⟨nofun, nofun⟩
  | .error (.panic _) => simp [Except.mapError, Fault.map]
  | .error (.error err') => simp [Except.mapError, Fault.map, hf]

/-- Unless the stream has ended too early for the reader, bytes behind its end change nothing and are
left; and what is read does not depend on the bytes that are left. -/
structure Incremental (eof : ε) (x : Reads ε α) : Prop where
  longer : ∀ input, x input = .error (.error eof) ∨
    ∀ tail, x (input ++ tail) = (x input).map fun taken => (taken.1, taken.2 ++ tail)
  taken : ∀ {input rest a}, x input = .ok (a, rest) →
    ∃ taken, input = taken ++ rest ∧ ∀ more, x (taken ++ more) = .ok (a, more)

theorem incremental_pure (eof : ε) (a : α) : Incremental eof (pure a) where
  longer _ := .inr fun _ => rfl
  taken h := by
    cases h
    exact ⟨[], rfl, fun _ => rfl⟩

theorem incremental_rejectIf (eof : ε) (c : Prop) [Decidable c] (err : ε) : Incremental eof (rejectIf c err) := by
  by_cases hc : c
  · refine ⟨fun input => .inr fun tail => ?_, fun h => ?_⟩
    · rw [rejectIf_pos hc, rejectIf_pos hc]
      rfl
    · rw [rejectIf_pos hc] at h
      cases h
  · refine ⟨fun input => .inr fun tail => ?_, fun h => ?_⟩
    · rw [rejectIf_neg hc, rejectIf_neg hc]
      rfl
    · rw [rejectIf_neg hc] at h
      cases h
      exact ⟨[], rfl, rejectIf_neg hc err⟩

theorem incremental_readExact (eof : ε) (n : Nat) : Incremental eof (readExact eof n) := by
  refine ⟨fun input => ?_, fun {input rest bytes} h => ?_⟩
  · by_cases h : n ≤ input.length
    · refine .inr fun tail => ?_
      have hlonger : n ≤ (input ++ tail).length := by
        rw [List.length_append]
        omega
      rw [readExact, readExact, if_pos h, if_pos hlonger, List.take_append_of_le_length h,
        List.drop_append_of_le_length h]
      rfl
    · exact .inl (if_neg h)
  · unfold readExact at h
    split at h
    · next hle =>
      cases h
      exact ⟨input.take n, (List.take_append_drop n input).symm, readExact_append (List.length_take_of_le hle)⟩
    · cases h

theorem Incremental.bind {eof : ε} {x : Reads ε α} {f : α → Reads ε β} (hx : Incremental eof x)
    (hf : ∀ a, Incremental eof (f a)) : Incremental eof (x >>= f) := by
  refine ⟨fun input => ?_, fun h => ?_⟩
  · rcases hx.longer input with heof | htail
    · exact .inl (reads_bind_error heof)
    · match hread : x input with
      | .error fault =>
        refine .inr fun tail => ?_
        have hlonger := htail tail
        rw [hread] at hlonger
        rw [reads_bind_error hread, reads_bind_error hlonger]
        rfl
      | .ok (a, rest) =>
        rw [reads_bind_ok hread]
        rcases (hf a).longer rest with heof | hrest
        · exact .inl heof
        · refine .inr fun tail => ?_
          have hlonger := htail tail
          rw [hread] at hlonger
          rw [reads_bind_ok hlonger]
          exact hrest tail
  · rw [reads_bind] at h
    obtain ⟨⟨a, between⟩, hfirst, hsecond⟩ := bind_eq_ok.mp h
    obtain ⟨first, rfl, hread⟩ := hx.taken hfirst
    obtain ⟨second, rfl, hread'⟩ := (hf a).taken hsecond
    refine ⟨first ++ second, (List.append_assoc _ _ _).symm, fun more => ?_⟩
    rw [List.append_assoc, reads_bind_ok (hread _), hread']

theorem Incremental.asUsize {eof : ε} {x : Reads ε UInt64} (h : Incremental eof x) : Incremental eof (asUsize x) :=
  h.bind fun value => incremental_pure eof value.toNat

theorem Incremental.ok_append {eof : ε} {x : Reads ε α} (h : Incremental eof x) {input rest : List UInt8} {a : α}
    (hread : x input = .ok (a, rest)) (tail : List UInt8) : x (input ++ tail) = .ok (a, rest ++ tail) := by
  rcases h.longer input with heof | htail
  · rw [heof] at hread
    cases hread
  · rw [htail tail, hread]
    rfl

end Hysteria.Lib
