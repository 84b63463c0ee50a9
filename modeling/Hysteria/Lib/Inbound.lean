import Hysteria.Lib.Exec
import Hysteria.Lib.Search

/-! A stream of bytes that arrives in pieces and is read through a buffer. Where the
stream is cut is not up to its reader, so what a reader returns may not depend on it. -/
namespace Hysteria.Lib

/-- The bytes still to arrive, in the pieces that single reads get to see. -/
structure Source where
  pieces : List (List UInt8)
  nonempty : ∀ piece ∈ pieces, piece ≠ []
deriving DecidableEq

namespace Source

def bytes (s : Source) : List UInt8 := s.pieces.flatten

def ofPieces (pieces : List (List UInt8)) : Source where
  pieces := pieces.filter (· ≠ [])
  nonempty := by simp

@[simp] theorem bytes_ofPieces (pieces : List (List UInt8)) :
    (ofPieces pieces).bytes = pieces.flatten := List.flatten_filter_ne_nil

/-- A read with room for `cap` bytes. It returns nothing only at the end of the stream. -/
def read (s : Source) (cap : Nat) : List UInt8 × Source :=
  match s.pieces with
  | [] => ([], s)
  | piece :: rest => (piece.take cap, ofPieces (piece.drop cap :: rest))

theorem read_ofPieces {piece : List UInt8} (h : piece ≠ []) (rest : List (List UInt8)) (cap : Nat) :
    (ofPieces (piece :: rest)).read cap = (piece.take cap, ofPieces (piece.drop cap :: rest)) := by
  simp [ofPieces, read, h, List.filter_cons]

theorem read_append (s : Source) (cap : Nat) : (s.read cap).1 ++ (s.read cap).2.bytes = s.bytes := by
  unfold read
  split
  case h_1 => rfl
  case h_2 piece rest h =>
    rw [bytes_ofPieces, List.flatten_cons, ← List.append_assoc, List.take_append_drop, bytes, h,
      List.flatten_cons]

theorem length_read_le (s : Source) (cap : Nat) : (s.read cap).1.length ≤ cap := by
  unfold read
  split
  · exact Nat.zero_le cap
  · exact List.length_take_le cap _

theorem read_ne_nil {s : Source} {cap : Nat} (hcap : 0 < cap) (h : s.bytes ≠ []) :
    (s.read cap).1 ≠ [] := by
  unfold read
  split
  case h_1 hnil => simp [bytes, hnil] at h
  case h_2 piece rest hcons =>
    have := s.nonempty piece (by simp [hcons])
    simpa [Nat.ne_of_gt hcap] using this

theorem length_read_lt {s : Source} {cap : Nat} (h : (s.read cap).1 ≠ []) :
    (s.read cap).2.bytes.length < s.bytes.length := by
  have hpos := List.length_pos_iff.mpr h
  rw [← read_append s cap, List.length_append]
  omega

def copyPieces : Nat → List (List UInt8) → List UInt8 × List (List UInt8)
  | _, [] => ([], [])
  | n, piece :: rest =>
    if n ≤ piece.length then (piece.take n, piece.drop n :: rest)
    else
      let copied := copyPieces (n - piece.length) rest
      (piece ++ copied.1, copied.2)

def copy (s : Source) (n : Nat) : List UInt8 × Source :=
  let copied := copyPieces n s.pieces
  (copied.1, ofPieces copied.2)

theorem copyPieces_eq (n : Nat) (pieces : List (List UInt8)) :
    (copyPieces n pieces).1 = pieces.flatten.take n ∧
      (copyPieces n pieces).2.flatten = pieces.flatten.drop n := by
  induction pieces generalizing n with
  | nil => simp [copyPieces]
  | cons piece rest ih =>
    rw [copyPieces]
    split
    case isTrue hle => simp [List.take_append, List.drop_append, Nat.sub_eq_zero_of_le hle]
    case isFalse hlt =>
      have hge : piece.length ≤ n := by omega
      obtain ⟨hcopied, hleft⟩ := ih (n - piece.length)
      simp [List.take_append, List.drop_append, List.take_of_length_le hge,
        List.drop_eq_nil_of_le hge, hcopied, hleft]

@[simp] theorem copy_fst (s : Source) (n : Nat) : (s.copy n).1 = s.bytes.take n :=
  (copyPieces_eq n s.pieces).1

@[simp] theorem bytes_copy (s : Source) (n : Nat) : (s.copy n).2.bytes = s.bytes.drop n := by
  rw [copy, bytes_ofPieces]
  exact (copyPieces_eq n s.pieces).2

end Source

/-- What has been read and not been used, and what has not been read. -/
structure Inbound where
  buffer : List UInt8
  source : Source
deriving DecidableEq

def Inbound.bytes (s : Inbound) : List UInt8 := s.buffer ++ s.source.bytes

theorem Inbound.bytes_read (s : Inbound) (cap : Nat) :
    s.buffer ++ (s.source.read cap).1 ++ (s.source.read cap).2.bytes = s.bytes := by
  rw [List.append_assoc, Source.read_append, Inbound.bytes]

def Inbound.outcome (result : Exec ε (α × Inbound)) : Exec ε (α × List UInt8) :=
  result.map fun returned => (returned.1, returned.2.bytes)

/-- A reader gives the same wherever the stream behind the buffer is cut. -/
def Inbound.CutFree (read : Inbound → Exec ε (α × Inbound)) (buffer stream : List UInt8) : Prop :=
  ∀ first second : Source, first.bytes = stream → second.bytes = stream →
    Inbound.outcome (read ⟨buffer, first⟩) = Inbound.outcome (read ⟨buffer, second⟩)

theorem Inbound.cutFree_of_outcome {read : Inbound → Exec ε (α × Inbound)} {buffer stream : List UInt8}
    (result : Exec ε (α × List UInt8))
    (h : ∀ source : Source, source.bytes = stream → Inbound.outcome (read ⟨buffer, source⟩) = result) :
    Inbound.CutFree read buffer stream :=
  fun first second hfirst hsecond => (h first hfirst).trans (h second hsecond).symm

/-- How a reader looks for a mark: the room of one read, the checks it makes on the buffer
before and after it, and what it returns when it finds the mark or the stream ends. -/
structure Scan (ε : Type u) (α : Type) where
  needle : List UInt8
  cap : Nat
  before : List UInt8 → Exec ε Unit
  after : List UInt8 → Exec ε Unit
  found : List UInt8 → α
  eof : List UInt8 → Exec ε α

namespace Scan

variable {ε : Type u} {α : Type}

def run (scan : Scan ε α) (s : Inbound) : Exec ε (α × Inbound) :=
  match findSeq scan.needle s.buffer with
  | some i => .ok (scan.found (s.buffer.take i),
      { s with buffer := s.buffer.drop (i + scan.needle.length) })
  | none => do
    scan.before s.buffer
    let chunk := s.source.read scan.cap
    if _h : chunk.1 = [] then
      let result ← scan.eof s.buffer
      return (result, s)
    else
      scan.after (s.buffer ++ chunk.1)
      run scan ⟨s.buffer ++ chunk.1, chunk.2⟩
termination_by s.source.bytes.length
decreasing_by exact Source.length_read_lt _h

variable {scan : Scan ε α}

theorem run_found {s : Inbound} {i : Nat} (h : findSeq scan.needle s.buffer = some i) :
    scan.run s = .ok (scan.found (s.buffer.take i),
      { s with buffer := s.buffer.drop (i + scan.needle.length) }) := by
  rw [run, h]

theorem run_read {s : Inbound} (h : findSeq scan.needle s.buffer = none)
    (hbefore : scan.before s.buffer = .ok ()) (hread : (s.source.read scan.cap).1 ≠ [])
    (hafter : scan.after (s.buffer ++ (s.source.read scan.cap).1) = .ok ()) :
    scan.run s = scan.run ⟨s.buffer ++ (s.source.read scan.cap).1, (s.source.read scan.cap).2⟩ := by
  rw [run, h]
  simp only [hbefore, ok_bind, dif_neg hread, hafter]

theorem run_eof {s : Inbound} (h : findSeq scan.needle s.buffer = none)
    (hbefore : scan.before s.buffer = .ok ()) (hread : (s.source.read scan.cap).1 = []) :
    scan.run s = scan.eof s.buffer >>= fun result => .ok (result, s) := by
  rw [run, h]
  simp only [hbefore, ok_bind, dif_pos hread]
  rfl

theorem run_refused {s : Inbound} {fault : Fault ε} (h : findSeq scan.needle s.buffer = none)
    (hbefore : scan.before s.buffer = .ok ()) (hread : (s.source.read scan.cap).1 ≠ [])
    (hafter : scan.after (s.buffer ++ (s.source.read scan.cap).1) = .error fault) :
    scan.run s = .error fault := by
  rw [run, h]
  simp only [hbefore, ok_bind, dif_neg hread, hafter, error_bind]

theorem run_refused_before {s : Inbound} {fault : Fault ε} (h : findSeq scan.needle s.buffer = none)
    (hbefore : scan.before s.buffer = .error fault) : scan.run s = .error fault := by
  rw [run, h]
  simp only [hbefore, error_bind]

inductive Returns (scan : Scan ε α) (s : Inbound) : α → Inbound → Prop
  | found {body : List UInt8} {s' : Inbound} (h : s.bytes = body ++ scan.needle ++ s'.bytes) :
      Returns scan s (scan.found body) s'
  | eof {result : α} {s' : Inbound} (heof : scan.eof s'.buffer = .ok result)
      (h : s.bytes = s'.bytes) : Returns scan s result s'

theorem run_ok {s s' : Inbound} {result : α} (h : scan.run s = .ok (result, s')) :
    (∃ body, findSeq scan.needle s.bytes = some body.length ∧ result = scan.found body ∧
        s.bytes = body ++ scan.needle ++ s'.bytes) ∨
      scan.eof s'.buffer = .ok result ∧ s.bytes = s'.bytes := by
  induction hn : s.source.bytes.length using Nat.strong_induction_on generalizing s with
  | _ n ih =>
  subst hn
  rw [run] at h
  split at h
  case h_1 i hfound =>
    cases h
    have hlen : (s.buffer.take i).length = i := by
      have := (findSeq_spec hfound).2
      rw [List.length_take]
      omega
    refine .inl ⟨s.buffer.take i, ?_, rfl, ?_⟩
    · rw [hlen]
      exact findSeq_append hfound s.source.bytes
    · simp only [Inbound.bytes, ← List.append_assoc, findSeq_split hfound]
  case h_2 hnone =>
    obtain ⟨_, hbefore, h⟩ := bind_eq_ok.mp h
    dsimp only at h
    split at h
    case isTrue =>
      obtain ⟨_, heof, h⟩ := bind_eq_ok.mp h
      cases h
      exact .inr ⟨heof, rfl⟩
    case isFalse hread =>
      obtain ⟨_, hafter, h⟩ := bind_eq_ok.mp h
      rw [← s.bytes_read scan.cap]
      exact ih _ (Source.length_read_lt hread) h rfl

theorem run_returns {s s' : Inbound} {result : α} (h : scan.run s = .ok (result, s')) :
    Returns scan s result s' := by
  rcases run_ok h with ⟨body, -, rfl, hbytes⟩ | ⟨heof, hbytes⟩
  · exact .found hbytes
  · exact .eof heof hbytes

theorem run_fault {P : Fault ε → Prop} (hbefore : ∀ buffer fault, scan.before buffer = .error fault → P fault)
    (hafter : ∀ buffer fault, scan.after buffer = .error fault → P fault)
    (heof : ∀ buffer fault, scan.eof buffer = .error fault → P fault) {s : Inbound} {fault : Fault ε}
    (h : scan.run s = .error fault) : P fault := by
  induction hn : s.source.bytes.length using Nat.strong_induction_on generalizing s with
  | _ n ih =>
  subst hn
  rw [run] at h
  split at h
  · cases h
  · rcases bind_eq_error.mp h with hfault | ⟨_, -, h⟩
    · exact hbefore _ _ hfault
    dsimp only at h
    split at h
    · rcases bind_eq_error.mp h with hfault | ⟨_, -, h⟩
      · exact heof _ _ hfault
      · cases h
    case isFalse hread =>
      rcases bind_eq_error.mp h with hfault | ⟨_, -, h⟩
      · exact hafter _ _ hfault
      · exact ih _ (Source.length_read_lt hread) h rfl

/-- The mark is found wherever the stream is cut, as long as the buffer passes the checks
up to there; what follows the mark is all that is left. -/
theorem run_eq_found {s : Inbound} {body tail : List UInt8} (hcap : 0 < scan.cap)
    (hbytes : s.bytes = body ++ scan.needle ++ tail)
    (hfirst : findSeq scan.needle (body ++ scan.needle) = some body.length)
    (hbefore : ∀ buffer : List UInt8, buffer.length < body.length + scan.needle.length →
      scan.before buffer = .ok ())
    (hafter : ∀ buffer, buffer <+: body ++ scan.needle ++ tail →
      buffer.length < body.length + scan.needle.length + scan.cap → scan.after buffer = .ok ()) :
    ∃ s', scan.run s = .ok (scan.found body, s') ∧ s'.bytes = tail := by
  induction hn : s.source.bytes.length using Nat.strong_induction_on generalizing s with
  | _ n ih =>
  subst hn
  have hstart : s.buffer <+: body ++ scan.needle ++ tail := ⟨s.source.bytes, hbytes⟩
  by_cases hlen : s.buffer.length < body.length + scan.needle.length
  -- the mark has not arrived yet
  · have hnone : findSeq scan.needle s.buffer = none :=
      findSeq_eq_none_of_short (findSeq_append hfirst tail) hstart hlen
    have hmore : s.source.bytes ≠ [] := by
      intro hnil
      have := congrArg List.length hbytes
      simp only [Inbound.bytes, hnil, List.append_nil, List.length_append] at this
      omega
    have hread := Source.read_ne_nil hcap hmore
    have hchunk := s.source.length_read_le scan.cap
    have hnext := s.bytes_read scan.cap
    rw [run_read hnone (hbefore _ hlen) hread
      (hafter _ ⟨_, hnext.trans hbytes⟩ (by rw [List.length_append]; omega))]
    exact ih _ (Source.length_read_lt hread) (hnext.trans hbytes) rfl
  · have hwhole : body ++ scan.needle <+: s.buffer :=
      List.prefix_of_prefix_length_le (List.prefix_append _ _) hstart
        (by rw [List.length_append]; omega)
    obtain ⟨rest, hrest⟩ := hwhole
    have hfound : findSeq scan.needle s.buffer = some body.length := hrest ▸ findSeq_append hfirst rest
    have htake : s.buffer.take body.length = body := by
      rw [← hrest, List.append_assoc, List.take_left]
    have hdrop : s.buffer.drop (body.length + scan.needle.length) = rest := by
      rw [← hrest, ← List.length_append, List.drop_left]
    refine ⟨⟨rest, s.source⟩, by rw [run_found hfound, htake, hdrop], ?_⟩
    have hall : body ++ scan.needle ++ (rest ++ s.source.bytes) = body ++ scan.needle ++ tail := by
      rw [← hbytes, Inbound.bytes, ← hrest, List.append_assoc, List.append_assoc, List.append_assoc]
    exact List.append_cancel_left hall

theorem run_eq_first {s : Inbound} {i : Nat} (hcap : 0 < scan.cap)
    (h : findSeq scan.needle s.bytes = some i)
    (hbefore : ∀ buffer : List UInt8, buffer.length < i + scan.needle.length →
      scan.before buffer = .ok ())
    (hafter : ∀ buffer, buffer <+: s.bytes → buffer.length < i + scan.needle.length + scan.cap →
      scan.after buffer = .ok ()) :
    Inbound.outcome (scan.run s) =
      .ok (scan.found (s.bytes.take i), s.bytes.drop (i + scan.needle.length)) := by
  have hlen : (s.bytes.take i).length = i := by
    have := (findSeq_spec h).2
    rw [List.length_take]
    omega
  have hsplit := findSeq_split h
  have hfirst := findSeq_take h
  generalize s.bytes.take i = body, s.bytes.drop (i + scan.needle.length) = tail at hlen hsplit hfirst ⊢
  subst hlen
  rw [← hsplit] at hafter
  obtain ⟨s', hrun, hleft⟩ := run_eq_found hcap hsplit.symm hfirst hbefore hafter
  rw [hrun, ← hleft]
  rfl

theorem run_eq_eof {s : Inbound} (hcap : 0 < scan.cap) (hnone : findSeq scan.needle s.bytes = none)
    (hbefore : ∀ buffer, buffer <+: s.bytes → scan.before buffer = .ok ())
    (hafter : ∀ buffer, buffer <+: s.bytes → s.buffer.length < buffer.length →
      scan.after buffer = .ok ()) :
    Inbound.outcome (scan.run s) = scan.eof s.bytes >>= fun result => .ok (result, s.bytes) := by
  induction hn : s.source.bytes.length using Nat.strong_induction_on generalizing s with
  | _ n ih =>
  subst hn
  have hnext := s.bytes_read scan.cap
  have hfree : findSeq scan.needle s.buffer = none := findSeq_eq_none_of_start hnone ⟨_, rfl⟩
  by_cases hread : (s.source.read scan.cap).1 = []
  · have hdone : s.source.bytes = [] := by
      by_contra hmore
      exact Source.read_ne_nil hcap hmore hread
    have hall : s.buffer = s.bytes := by rw [Inbound.bytes, hdone, List.append_nil]
    rw [run_eof hfree (hbefore _ ⟨_, rfl⟩) hread, hall]
    cases scan.eof s.bytes <;> rfl
  · have hlonger : s.buffer.length < (s.buffer ++ (s.source.read scan.cap).1).length := by
      rw [List.length_append]
      exact Nat.lt_add_of_pos_right (List.length_pos_iff.mpr hread)
    rw [run_read hfree (hbefore _ ⟨_, rfl⟩) hread (hafter _ ⟨_, hnext⟩ hlonger)]
    rw [← hnext] at hnone hbefore hafter ⊢
    refine @ih _ (Source.length_read_lt hread) ⟨_, _⟩ hnone hbefore ?_ rfl
    exact fun buffer hstart hlen => hafter buffer hstart (hlonger.trans hlen)

/-- The rule for a run that fails: `P` holds of each buffer it gets to, up to a check that
refuses one. -/
theorem run_eq_error {s : Inbound} {fault : Fault ε} (hcap : 0 < scan.cap) {P : List UInt8 → Prop}
    (hstart : P s.buffer)
    (hstep : ∀ buffer rest, buffer ++ rest = s.bytes → P buffer →
      findSeq scan.needle buffer = none ∧ (scan.before buffer = .error fault ∨
        scan.before buffer = .ok () ∧ rest ≠ [] ∧ ∀ chunk, chunk ≠ [] → chunk.length ≤ scan.cap →
          scan.after (buffer ++ chunk) = .error fault ∨
            scan.after (buffer ++ chunk) = .ok () ∧ P (buffer ++ chunk))) :
    scan.run s = .error fault := by
  induction hn : s.source.bytes.length using Nat.strong_induction_on generalizing s with
  | _ n ih =>
  subst hn
  obtain ⟨hnone, hbefore | ⟨hbefore, hmore, hchunk⟩⟩ := hstep s.buffer s.source.bytes rfl hstart
  · exact run_refused_before hnone hbefore
  · have hread := Source.read_ne_nil hcap hmore
    rcases hchunk _ hread (s.source.length_read_le scan.cap) with hafter | ⟨hafter, hnext⟩
    · exact run_refused hnone hbefore hread hafter
    · rw [run_read hnone hbefore hread hafter]
      refine ih _ (Source.length_read_lt hread) hnext ?_ rfl
      intro buffer rest hsplit
      exact hstep buffer rest (hsplit.trans (s.bytes_read scan.cap))

theorem run_piece {buffer piece : List UInt8} {rest : List (List UInt8)} (hcap : 0 < scan.cap)
    (hbefore : ∀ start, start <+: piece → start.length < piece.length →
      findSeq scan.needle (buffer ++ start) = none ∧ scan.before (buffer ++ start) = .ok ())
    (hafter : ∀ start, start <+: piece → scan.after (buffer ++ start) = .ok ()) :
    scan.run ⟨buffer, .ofPieces (piece :: rest)⟩ = scan.run ⟨buffer ++ piece, .ofPieces rest⟩ := by
  induction hn : piece.length using Nat.strong_induction_on generalizing buffer piece with
  | _ n ih =>
  subst hn
  by_cases hnil : piece = []
  · rw [hnil, List.append_nil]
    rfl
  · have hread := Source.read_ofPieces hnil rest scan.cap
    have hne : piece.take scan.cap ≠ [] := by simp [hnil, hcap.ne']
    obtain ⟨hnone, hpass⟩ := hbefore [] List.nil_prefix (List.length_pos_iff.mpr hnil)
    rw [List.append_nil] at hnone hpass
    have hlonger : ∀ {start}, start <+: piece.drop scan.cap → piece.take scan.cap ++ start <+: piece := by
      intro start hstart
      simpa only [List.take_append_drop] using (List.prefix_append_right_inj (piece.take scan.cap)).mpr hstart
    rw [run_read hnone hpass (by rw [hread]; exact hne) (by rw [hread]; exact hafter _ (List.take_prefix _ _)),
      hread]
    dsimp only
    rw [ih _ ?_ ?_ ?_ rfl, List.append_assoc, List.take_append_drop]
    · rw [List.length_drop]
      have := List.length_pos_iff.mpr hnil
      omega
    · intro start hstart hlen
      rw [List.append_assoc]
      refine hbefore _ (hlonger hstart) ?_
      have := congrArg List.length (List.take_append_drop scan.cap piece)
      rw [List.length_append] at this ⊢
      omega
    · intro start hstart
      rw [List.append_assoc]
      exact hafter _ (hlonger hstart)

end Scan

end Hysteria.Lib
