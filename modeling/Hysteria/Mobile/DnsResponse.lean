import Hysteria.Mobile.DnsProxy

/-! The answers that the DNS proxy gives by itself. They are a copy of the query up to the end of its
first question, with other flags and with no records counted behind the questions. -/
namespace Hysteria.Mobile.Dns
open Lib

structure Flags where
  qr : Bool
  opcode : Nat
  aa : Bool
  tc : Bool
  rd : Bool
  ra : Bool
  z : Bool
  ad : Bool
  cd : Bool
  rcode : Nat
deriving DecidableEq, Repr

def Flags.decode (word : UInt16) : Flags where
  qr := word.toNat.testBit 15
  opcode := word.toNat / 2 ^ 11 % 2 ^ 4
  aa := word.toNat.testBit 10
  tc := word.toNat.testBit 9
  rd := word.toNat.testBit 8
  ra := word.toNat.testBit 7
  z := word.toNat.testBit 6
  ad := word.toNat.testBit 5
  cd := word.toNat.testBit 4
  rcode := word.toNat % 2 ^ 4

def Flags.answered (query : Flags) (rcode : Nat) : Flags :=
  { query with qr := true, aa := false, tc := false, ra := true, z := false, rcode }

theorem testBit_responseFlags (flags rcode : UInt16) (i : Nat) :
    (responseFlags flags rcode).toNat.testBit i =
      (Nat.testBit 0x8080 i || (flags.toNat.testBit i && Nat.testBit 0x7930 i) || rcode.toNat.testBit i) := by
  have hset : Nat.testBit 0x8080 i = (Nat.testBit 0x8000 i || Nat.testBit 0x0080 i) := Nat.testBit_or 0x8000 0x0080 i
  have hkept : Nat.testBit 0x7930 i = (Nat.testBit 0x7900 i || Nat.testBit 0x0130 i) := Nat.testBit_or 0x7900 0x0130 i
  simp only [responseFlags, UInt16.toNat_or, UInt16.toNat_and, Nat.testBit_or, Nat.testBit_and, hset, hkept,
    Bool.and_or_distrib_left, Bool.or_assoc, UInt16.reduceToNat]

theorem decode_responseFlags (flags : UInt16) {rcode : UInt16} (hrcode : rcode < 16) :
    Flags.decode (responseFlags flags rcode) = (Flags.decode flags).answered rcode.toNat := by
  have hsmall : rcode.toNat < 2 ^ 4 := hrcode
  have hhigh {i : Nat} (hi : 4 ≤ i) : rcode.toNat.testBit i = false :=
    Nat.testBit_lt_two_pow (Nat.lt_of_lt_of_le hsmall (Nat.pow_le_pow_right (by decide) hi))
  have hopcode : (responseFlags flags rcode).toNat / 2 ^ 11 % 2 ^ 4 = flags.toNat / 2 ^ 11 % 2 ^ 4 := by
    have hmask : ∀ i < 4, Nat.testBit 0x8080 (i + 11) = false ∧ Nat.testBit 0x7930 (i + 11) = true := by decide
    apply Nat.eq_of_testBit_eq
    intro i
    simp only [Nat.testBit_mod_two_pow, Nat.testBit_div_two_pow, testBit_responseFlags, hhigh (show 4 ≤ i + 11 by omega)]
    by_cases hi : i < 4
    · simp [hmask i hi]
    · simp [hi]
  have hlow : (responseFlags flags rcode).toNat % 2 ^ 4 = rcode.toNat := by
    have hmask : ∀ i < 4, Nat.testBit 0x8080 i = false ∧ Nat.testBit 0x7930 i = false := by decide
    apply Nat.eq_of_testBit_eq
    intro i
    simp only [Nat.testBit_mod_two_pow, testBit_responseFlags]
    by_cases hi : i < 4
    · simp [hi, hmask i hi]
    · simp [hi, hhigh (Nat.le_of_not_lt hi)]
  simp only [Flags.decode, Flags.answered, hopcode, hlow, testBit_responseFlags, hhigh (show 4 ≤ 15 by decide),
    hhigh (show 4 ≤ 10 by decide), hhigh (show 4 ≤ 9 by decide), hhigh (show 4 ≤ 8 by decide),
    hhigh (show 4 ≤ 7 by decide), hhigh (show 4 ≤ 6 by decide), hhigh (show 4 ≤ 5 by decide),
    hhigh (show 4 ≤ 4 by decide)]
  simp [Nat.testBit]

theorem length_nameWire_eq {name name' : List Label} {rest rest' : List UInt8}
    (h : nameWire name ++ rest = nameWire name' ++ rest') : (nameWire name).length = (nameWire name').length := by
  induction name generalizing name' with
  | nil =>
    cases name' with
    | nil => rfl
    | cons label' name' =>
      rw [nameWire_cons] at h
      exact absurd (List.cons.inj h).1.symm label'.ofNat_length_ne_zero
  | cons label name ih =>
    cases name' with
    | nil =>
      rw [nameWire_cons] at h
      exact absurd (List.cons.inj h).1 label.ofNat_length_ne_zero
    | cons label' name' =>
      simp only [nameWire_cons, List.cons_append, List.append_assoc] at h ⊢
      obtain ⟨hfirst, hmore⟩ := List.cons.inj h
      have hlength : label.bytes.length = label'.bytes.length := by
        rw [← label.toNat_length, hfirst, label'.toNat_length]
      have hrest := (List.append_inj hmore hlength).2
      simp only [List.length_cons, List.length_append, hlength, ih hrest]

theorem Question.wire_ne_nil (question : Question) : question.wire ≠ [] := by
  rw [← List.length_pos_iff, question.length_wire]
  omega

theorem length_eq_one_of_wire {question : Question} {questions : List Question}
    (h : question.wire = questions.flatMap Question.wire) : questions.length = 1 := by
  cases questions with
  | nil => exact absurd h question.wire_ne_nil
  | cons first questions =>
    rw [List.flatMap_cons] at h
    have hname : nameWire question.name ++ (u16Wire question.qtype ++ u16Wire question.qclass) =
        nameWire first.name ++ (u16Wire first.qtype ++ u16Wire first.qclass ++ questions.flatMap Question.wire) := by
      simpa [Question.wire] using h
    have hlength := length_nameWire_eq hname
    have htotal := congrArg List.length h
    rw [List.length_append, question.length_wire, first.length_wire, hlength] at htotal
    have hnone : questions.flatMap Question.wire = [] := List.length_eq_zero_iff.mp (by omega)
    cases questions with
    | nil => rfl
    | cons second questions =>
      rw [List.flatMap_cons] at hnone
      exact absurd (List.append_eq_nil_iff.mp hnone).1 second.wire_ne_nil

theorem u16Wire_append_inj {n m : UInt16} {rest rest' : List UInt8} (h : u16Wire n ++ rest = u16Wire m ++ rest') :
    n = m ∧ rest = rest' := by
  obtain ⟨hwire, hrest⟩ := List.append_inj h (by simp)
  exact ⟨u16Wire_injective hwire, hrest⟩

theorem Header.wire_injective : Function.Injective Header.wire := by
  intro header header' h
  obtain ⟨hid, h⟩ := u16Wire_append_inj h
  obtain ⟨hflags, h⟩ := u16Wire_append_inj h
  obtain ⟨hqdCount, h⟩ := u16Wire_append_inj h
  obtain ⟨hanCount, h⟩ := u16Wire_append_inj h
  obtain ⟨hnsCount, h⟩ := u16Wire_append_inj h
  exact Header.ext hid hflags hqdCount hanCount hnsCount (u16Wire_injective h)

def Header.answered (header : Header) (rcode : UInt16) : Header :=
  { header with flags := responseFlags header.flags rcode, anCount := 0, nsCount := 0, arCount := 0 }

theorem buildDnsResponseWithRcode_wire {profile : Profile} {query : Slice} {header : Header} {question : Question}
    {rest : List UInt8} (h : query.bytes = header.wire ++ (question.wire ++ rest)) (hcount : header.qdCount ≠ 0)
    (rcode : UInt16) :
    buildDnsResponseWithRcode profile query rcode = .ok ((header.answered rcode).wire ++ question.wire) := by
  have hcopy : (slice query.bytes 0 (header.wire.length + question.wire.length) : Exec String _) =
      .ok (header.wire ++ question.wire) := by
    rw [h, ← List.append_assoc, ← List.length_append]
    exact @slice_append UInt8 String [] _ rest _ _ rfl (Nat.zero_add _)
  unfold buildDnsResponseWithRcode
  rw [firstQuestion_wire h hcount, ok_bind, hcopy, ok_bind, u16At_flags h, ok_bind]
  simp only [Header.wire, Header.answered, List.append_assoc]
  -- each of the four fields is written over what was copied there
  have hwrite (before rest : List UInt8) (old new : UInt16) (start : Nat) (hstart : before.length = start) :
      (writeSlice (before ++ (u16Wire old ++ rest)) start (u16Wire new) : Exec String _) =
        .ok (before ++ (u16Wire new ++ rest)) := writeSlice_append hstart (by simp)
  have hflags := hwrite (u16Wire header.id) (u16Wire header.qdCount ++ (u16Wire header.anCount ++
    (u16Wire header.nsCount ++ (u16Wire header.arCount ++ question.wire)))) header.flags
    (responseFlags header.flags rcode) 2 rfl
  have hanCount := hwrite (u16Wire header.id ++ (u16Wire (responseFlags header.flags rcode) ++ u16Wire header.qdCount))
    (u16Wire header.nsCount ++ (u16Wire header.arCount ++ question.wire)) header.anCount 0 6 rfl
  have hnsCount := hwrite (u16Wire header.id ++ (u16Wire (responseFlags header.flags rcode) ++
    (u16Wire header.qdCount ++ u16Wire 0))) (u16Wire header.arCount ++ question.wire) header.nsCount 0 8 rfl
  have harCount := hwrite (u16Wire header.id ++ (u16Wire (responseFlags header.flags rcode) ++
    (u16Wire header.qdCount ++ (u16Wire 0 ++ u16Wire 0)))) question.wire header.arCount 0 10 rfl
  simp only [List.append_assoc] at hanCount hnsCount harCount
  change (writeSlice _ 2 (u16Wire _) >>= fun response => writeSlice response 6 (u16Wire 0) >>= fun response =>
    writeSlice response 8 (u16Wire 0) >>= fun response => writeSlice response 10 (u16Wire 0)) = _
  rw [hflags, ok_bind, hanCount, ok_bind, hnsCount, ok_bind, harCount]

/-- A well-formed answer without records to a query with this header and this behind it: its identifier is
that of the query, its flags say so, and behind its header stand as many of the copied questions as it counts. -/
def IsAnswer (header : Header) (rest : List UInt8) (rcode : UInt16) (response : List UInt8) : Prop :=
  ∃ (answer : Header) (questions : List Question),
    response = answer.wire ++ questions.flatMap Question.wire ∧ questions.flatMap Question.wire <+: rest ∧
      answer.id = header.id ∧ Flags.decode answer.flags = (Flags.decode header.flags).answered rcode.toNat ∧
      answer.qdCount.toNat = questions.length ∧ answer.anCount = 0 ∧ answer.nsCount = 0 ∧ answer.arCount = 0

theorem isAnswer_iff {header : Header} {question : Question} {rest : List UInt8} {rcode : UInt16}
    (hrcode : rcode < 16) :
    IsAnswer header (question.wire ++ rest) rcode ((header.answered rcode).wire ++ question.wire) ↔
      header.qdCount = 1 := by
  constructor
  · rintro ⟨answer, questions, hresponse, -, -, -, hcount, -⟩
    obtain ⟨hwire, hquestions⟩ := List.append_inj hresponse (by simp)
    rw [length_eq_one_of_wire hquestions] at hcount
    have hanswer := Header.wire_injective hwire
    rw [← hanswer] at hcount
    exact UInt16.toNat_inj.mp hcount
  · intro hcount
    refine ⟨header.answered rcode, [question], ?_, ?_, rfl, decode_responseFlags header.flags hrcode, ?_, rfl, rfl, rfl⟩
    · simp
    · simp
    · simp [Header.answered, hcount]

/-- Every query that `first_question` accepts is answered, with the first question. The answer is well-formed
exactly if that is the only question: the count of the query stays. -/
theorem response_wellFormed_iff (profile : Profile) (query : Slice) {found : DnsQuestion}
    (haccepted : firstQuestion profile query = .ok found) (rcode : UInt16) (hrcode : rcode < 16) :
    ∃ (header : Header) (rest response : List UInt8), query.bytes = header.wire ++ rest ∧
      buildDnsResponseWithRcode profile query rcode = .ok response ∧
      (IsAnswer header rest rcode response ↔ header.qdCount = 1) := by
  rcases firstQuestion_cases profile query with ⟨header, question, rest, hquery, hcount⟩ | ⟨text, herror⟩
  · exact ⟨header, question.wire ++ rest, _, hquery, buildDnsResponseWithRcode_wire hquery hcount rcode,
      isAnswer_iff hrcode⟩
  · rw [herror] at haccepted
    cases haccepted

def rootQuestion (qtype : UInt16) : Question := ⟨[], qtype, 1⟩

def askFor (qdCount : UInt16) : Header := ⟨7, 0x0100, qdCount, 0, 0, 0⟩

def oneQuestion : Slice := ⟨(askFor 1).wire ++ ((rootQuestion 1).wire ++ []), by decide⟩

theorem response_wellFormed_one :
    firstQuestion ⟨false⟩ oneQuestion = .ok ⟨1, 17⟩ ∧ dnsRcodeServFail < 16 ∧
      ∃ (header : Header) (rest response : List UInt8), oneQuestion.bytes = header.wire ++ rest ∧
        buildDnsResponseWithRcode ⟨false⟩ oneQuestion dnsRcodeServFail = .ok response ∧
        (IsAnswer header rest dnsRcodeServFail response ↔ header.qdCount = 1) := by
  have haccepted : firstQuestion ⟨false⟩ oneQuestion = .ok ⟨1, 17⟩ :=
    @firstQuestion_wire ⟨false⟩ oneQuestion (askFor 1) (rootQuestion 1) [] rfl (by decide)
  exact ⟨haccepted, by decide, response_wellFormed_iff ⟨false⟩ oneQuestion haccepted dnsRcodeServFail (by decide)⟩

def twoQuestions : Slice := ⟨(askFor 2).wire ++ ((rootQuestion 1).wire ++ (rootQuestion 28).wire), by decide⟩

/-- The answer to two questions counts two and holds one. -/
theorem second_question_lost :
    buildDnsResponseWithRcode ⟨false⟩ twoQuestions dnsRcodeServFail =
        .ok (((askFor 2).answered dnsRcodeServFail).wire ++ (rootQuestion 1).wire) ∧
      ¬ IsAnswer (askFor 2) ((rootQuestion 1).wire ++ (rootQuestion 28).wire) dnsRcodeServFail
        (((askFor 2).answered dnsRcodeServFail).wire ++ (rootQuestion 1).wire) := by
  constructor
  · exact buildDnsResponseWithRcode_wire rfl (by decide) dnsRcodeServFail
  · rw [isAnswer_iff (by decide)]
    decide

/-- A query is answered exactly if `first_question` accepts it, whatever the upstreams do. -/
theorem resolveRaw_ok_iff (profile : Profile) (upstreams : List DotUpstream)
    (queryUpstream : DotUpstream → Except String (List UInt8)) (request : Slice) :
    (∃ answer, resolveRaw profile upstreams queryUpstream request = .ok answer) ↔
      ∃ found, firstQuestion profile request = .ok found := by
  unfold resolveRaw classifyDnsQuery
  rcases firstQuestion_cases profile request with ⟨header, question, rest, hquery, hcount⟩ | ⟨text, herror⟩
  · have hbuild := @buildDnsResponseWithRcode_wire profile request header question rest hquery hcount
    rw [firstQuestion_wire hquery hcount]
    refine iff_of_true ?_ ⟨_, rfl⟩
    by_cases haaaa : question.qtype = dnsTypeAaaa
    · simp [haaaa, buildEmptyDnsSuccessResponse, hbuild, pure, Except.pure]
    · cases queryUpstreams queryUpstream "no DoT upstreams attempted" upstreams with
      | ok response => simp [haaaa, pure, Except.pure]
      | error reason => simp [haaaa, hbuild, pure, Except.pure]
  · rw [herror]
    refine iff_of_false ?_ ?_
    · rintro ⟨answer, ⟨⟩⟩
    · rintro ⟨found, ⟨⟩⟩

end Hysteria.Mobile.Dns
