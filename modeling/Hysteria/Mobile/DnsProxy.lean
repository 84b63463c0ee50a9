import Hysteria.Lib.Bytes
import Hysteria.Lib.Exec
import Mathlib.Data.Nat.Bitwise

/-! The local DNS proxy of the mobile client, `dns_proxy.rs`: it looks at the first question of a
query, and answers by itself where there is no IPv6 or no upstream answers. -/
namespace Hysteria.Mobile.Dns
open Lib

structure Slice where
  bytes : List UInt8
  length_le : bytes.length ≤ isizeMax

def dnsHeaderLen : Nat := 12
def dnsTypeAaaa : UInt16 := 28
def dnsRcodeNoError : UInt16 := 0
def dnsRcodeServFail : UInt16 := 2

structure DnsQuestion where
  qtype : UInt16
  endOffset : Nat
deriving DecidableEq, Repr

/-- `u16::from_be_bytes([packet[i], packet[j]])` -/
def u16At (packet : List UInt8) (i j : Nat) : Exec String UInt16 := do
  let high ← index packet i
  let low ← index packet j
  return .ofNat (beNat [high, low])

/-- The loop of `first_question` over the labels of the name, which ends behind it. -/
def nameEnd (profile : Profile) (packet : Slice) (offset : Nat) : Exec String Nat :=
  match _hget : packet.bytes[offset]? with
  | none => .error (.error "DNS question name is truncated")
  | some labelLen =>
    if labelLen &&& 0xc0 ≠ 0 then .error (.error "compressed DNS question names are not supported")
    else
      match _hnext : (addUsize profile offset 1 : Exec String Nat) with
      | .error fault => .error fault
      | .ok next =>
        if labelLen = 0 then .ok next
        else
          let behind := min (next + labelLen.toNat) (usizeSize - 1)
          if behind > packet.bytes.length then .error (.error "DNS question name exceeds packet length")
          else nameEnd profile packet behind
termination_by packet.bytes.length - offset
decreasing_by
  have hlt := (List.getElem?_eq_some_iff.mp _hget).1
  have hslice := packet.length_le
  have hmax : isizeMax + 1 < usizeSize := by decide
  rw [addUsize_ok profile (by omega)] at _hnext
  cases _hnext
  omega

def firstQuestion (profile : Profile) (packet : Slice) : Exec String DnsQuestion := do
  if packet.bytes.length < dnsHeaderLen then throw (.error "DNS packet is truncated")
  let questionCount ← u16At packet.bytes 4 5
  if questionCount = 0 then throw (.error "DNS packet does not contain a question")
  let offset ← nameEnd profile packet dnsHeaderLen
  let endOffset ← addUsize profile offset 4
  if endOffset > packet.bytes.length then throw (.error "DNS question is missing qtype/qclass")
  let qtype ← u16At packet.bytes offset (offset + 1)
  return { qtype, endOffset }

inductive DnsQueryKind where
  | aaaa
  | other (qtype : UInt16)
deriving DecidableEq, Repr

def classifyDnsQuery (profile : Profile) (packet : Slice) : Exec String DnsQueryKind := do
  let question ← firstQuestion profile packet
  return if question.qtype = dnsTypeAaaa then .aaaa else .other question.qtype

def responseFlags (requestFlags rcode : UInt16) : UInt16 :=
  0x8000 ||| 0x0080 ||| (requestFlags &&& 0x7900) ||| (requestFlags &&& 0x0130) ||| rcode

def buildDnsResponseWithRcode (profile : Profile) (query : Slice) (rcode : UInt16) : Exec String (List UInt8) := do
  let question ← firstQuestion profile query
  let response ← slice query.bytes 0 question.endOffset
  let requestFlags ← u16At query.bytes 2 3
  let response ← writeSlice response 2 (beBytes 2 (responseFlags requestFlags rcode).toNat)
  let response ← writeSlice response 6 (beBytes 2 0)
  let response ← writeSlice response 8 (beBytes 2 0)
  writeSlice response 10 (beBytes 2 0)

def buildEmptyDnsSuccessResponse (profile : Profile) (query : Slice) : Exec String (List UInt8) :=
  buildDnsResponseWithRcode profile query dnsRcodeNoError

structure DotUpstream where
  address : String
  serverName : String
deriving DecidableEq, Repr

/-- The first answer of an upstream, or the reason why the last one gave none. -/
def queryUpstreams (queryUpstream : DotUpstream → Except String (List UInt8)) :
    String → List DotUpstream → Except String (List UInt8)
  | reason, [] => .error reason
  | _, upstream :: upstreams =>
    match queryUpstream upstream with
    | .ok response => .ok response
    | .error err =>
      queryUpstreams queryUpstream s!"{upstream.serverName} via {upstream.address} failed: {err}" upstreams

/-- The answer to a query, and what the failure notifier is told. -/
def resolveRaw (profile : Profile) (upstreams : List DotUpstream)
    (queryUpstream : DotUpstream → Except String (List UInt8)) (request : Slice) :
    Exec String (List UInt8 × Option String) := do
  match ← classifyDnsQuery profile request with
  | .aaaa => return (← buildEmptyDnsSuccessResponse profile request, none)
  | .other _ =>
    match queryUpstreams queryUpstream "no DoT upstreams attempted" upstreams with
    | .ok response => return (response, none)
    | .error reason => return (← buildDnsResponseWithRcode profile request dnsRcodeServFail, some reason)

structure Label where
  bytes : List UInt8
  pos : 0 < bytes.length
  le : bytes.length ≤ 63

def Label.wire (label : Label) : List UInt8 := .ofNat label.bytes.length :: label.bytes

def nameWire (name : List Label) : List UInt8 := name.flatMap Label.wire ++ [0]

def u16Wire (n : UInt16) : List UInt8 := beBytes 2 n.toNat

structure Question where
  name : List Label
  qtype : UInt16
  qclass : UInt16

def Question.wire (question : Question) : List UInt8 :=
  nameWire question.name ++ (u16Wire question.qtype ++ u16Wire question.qclass)

@[ext] structure Header where
  id : UInt16
  flags : UInt16
  qdCount : UInt16
  anCount : UInt16
  nsCount : UInt16
  arCount : UInt16
deriving DecidableEq, Repr

def Header.wire (header : Header) : List UInt8 :=
  u16Wire header.id ++ (u16Wire header.flags ++ (u16Wire header.qdCount ++ (u16Wire header.anCount ++
    (u16Wire header.nsCount ++ u16Wire header.arCount))))

@[simp] theorem length_u16Wire (n : UInt16) : (u16Wire n).length = 2 := length_beBytes 2 _

@[simp] theorem Header.length_wire (header : Header) : header.wire.length = dnsHeaderLen := by
  simp [Header.wire, dnsHeaderLen]

theorem u16Wire_beNat (high low : UInt8) : u16Wire (.ofNat (beNat [high, low])) = [high, low] := by
  rw [u16Wire, UInt16.toNat_ofNat']
  exact beBytes_beNat_mod rfl rfl

theorem u16Wire_injective : Function.Injective u16Wire := by
  intro n m h
  have hvalue := congrArg beNat h
  rw [u16Wire, u16Wire, beNat_beBytes_of_lt n.toNat_lt, beNat_beBytes_of_lt m.toNat_lt] at hvalue
  exact UInt16.toNat_inj.mp hvalue

theorem u16At_wire {packet before rest : List UInt8} {i j : Nat} (n : UInt16)
    (h : packet = before ++ (u16Wire n ++ rest)) (hi : before.length = i) (hj : i + 1 = j) :
    u16At packet i j = .ok n := by
  obtain ⟨high, low, hwire⟩ : ∃ high low, u16Wire n = [high, low] := ⟨_, _, rfl⟩
  have hfirst : (index packet i : Exec String UInt8) = .ok high := by
    rw [h, hwire]
    exact index_append hi high
  have hsecond : (index packet j : Exec String UInt8) = .ok low := by
    rw [h, hwire, List.cons_append, List.append_cons]
    exact index_append (by simp [hi, hj]) low
  have hn : UInt16.ofNat (beNat [high, low]) = n := u16Wire_injective (by rw [u16Wire_beNat, hwire])
  rw [u16At, hfirst, ok_bind, hsecond, ok_bind, hn]
  rfl

theorem exists_header {bytes : List UInt8} (h : bytes.length = dnsHeaderLen) : ∃ header : Header, header.wire = bytes := by
  match bytes, h with
  | [a, b, c, d, e, f, g, i, j, k, l, m], _ =>
    refine ⟨⟨.ofNat (beNat [a, b]), .ofNat (beNat [c, d]), .ofNat (beNat [e, f]), .ofNat (beNat [g, i]),
      .ofNat (beNat [j, k]), .ofNat (beNat [l, m])⟩, ?_⟩
    simp only [Header.wire, u16Wire_beNat, List.cons_append, List.nil_append]

section
variable {profile : Profile} {packet : Slice} {offset : Nat}

theorem nameEnd_none (h : packet.bytes[offset]? = none) :
    nameEnd profile packet offset = .error (.error "DNS question name is truncated") := by
  rw [nameEnd]
  split
  · rfl
  · next hget =>
    rw [h] at hget
    cases hget

theorem nameEnd_some {labelLen : UInt8} (h : packet.bytes[offset]? = some labelLen) :
    nameEnd profile packet offset =
      if labelLen &&& 0xc0 ≠ 0 then .error (.error "compressed DNS question names are not supported")
      else if labelLen = 0 then .ok (offset + 1)
      else if offset + 1 + labelLen.toNat > packet.bytes.length then
        .error (.error "DNS question name exceeds packet length")
      else nameEnd profile packet (offset + 1 + labelLen.toNat) := by
  have hlt := (List.getElem?_eq_some_iff.mp h).1
  have hslice := packet.length_le
  have hlabel : labelLen.toNat < 256 := labelLen.toNat_lt
  have hmax : isizeMax + 256 < usizeSize - 1 := by decide
  have hnext : (addUsize profile offset 1 : Exec String Nat) = .ok (offset + 1) := addUsize_ok profile (by omega)
  have hbehind : min (offset + 1 + labelLen.toNat) (usizeSize - 1) = offset + 1 + labelLen.toNat := by omega
  rw [nameEnd]
  split
  · next hget =>
    rw [h] at hget
    cases hget
  · next hget =>
    cases h.symm.trans hget
    split
    · rfl
    · split
      · next herror =>
        rw [hnext] at herror
        cases herror
      · next hok =>
        cases hnext.symm.trans hok
        dsimp only
        rw [hbehind]

theorem topBits_eq_zero_iff (labelLen : UInt8) : labelLen &&& 0xc0 = 0 ↔ labelLen.toNat ≤ 63 :=
  @forall_byte (fun b => b &&& 0xc0 = 0 ↔ b.toNat ≤ 63) (by decide +kernel) labelLen

theorem Label.toNat_length (label : Label) : (UInt8.ofNat label.bytes.length).toNat = label.bytes.length := by
  have hle := label.le
  simp only [UInt8.toNat_ofNat']
  omega

theorem Label.ofNat_length_ne_zero (label : Label) : UInt8.ofNat label.bytes.length ≠ 0 := by
  intro hzero
  have hlength := label.toNat_length
  rw [hzero] at hlength
  exact absurd hlength (Nat.ne_of_lt label.pos)

theorem nameWire_cons (label : Label) (name : List Label) :
    nameWire (label :: name) = .ofNat label.bytes.length :: (label.bytes ++ nameWire name) := by
  simp [nameWire, Label.wire]

theorem nameEnd_wire {before rest : List UInt8} (name : List Label)
    (h : packet.bytes = before ++ (nameWire name ++ rest)) (hoffset : before.length = offset) :
    nameEnd profile packet offset = .ok (offset + (nameWire name).length) := by
  induction name generalizing before offset with
  | nil =>
    have hget : packet.bytes[offset]? = some 0 := by
      rw [h, ← hoffset]
      simp [nameWire]
    rw [nameEnd_some hget]
    rfl
  | cons label name ih =>
    have hlength := label.toNat_length
    have hget : packet.bytes[offset]? = some (.ofNat label.bytes.length) := by
      rw [h, ← hoffset, nameWire_cons]
      simp
    have htop : UInt8.ofNat label.bytes.length &&& 0xc0 = 0 := by
      rw [topBits_eq_zero_iff, hlength]
      exact label.le
    have hfits : ¬ offset + 1 + label.bytes.length > packet.bytes.length := by
      rw [h, nameWire_cons]
      simp only [List.length_append, List.length_cons]
      omega
    have hsplit : packet.bytes = (before ++ .ofNat label.bytes.length :: label.bytes) ++ (nameWire name ++ rest) := by
      rw [h, nameWire_cons]
      simp
    rw [nameEnd_some hget, if_neg (not_not.mpr htop), if_neg label.ofNat_length_ne_zero, hlength, if_neg hfits,
      ih hsplit (by simp [hoffset]; omega), nameWire_cons]
    simp only [List.length_cons, List.length_append]
    congr 1
    omega

theorem nameEnd_cases (profile : Profile) (packet : Slice) (offset : Nat) :
    (∃ name rest, packet.bytes.drop offset = nameWire name ++ rest) ∨
      ∃ text, nameEnd profile packet offset = .error (.error text) := by
  induction hleft : packet.bytes.length - offset using Nat.strongRecOn generalizing offset with
  | ind left ih =>
    cases hget : packet.bytes[offset]? with
    | none => exact .inr ⟨_, nameEnd_none hget⟩
    | some labelLen =>
      obtain ⟨hlt, hbyte⟩ := List.getElem?_eq_some_iff.mp hget
      have hdrop : packet.bytes.drop offset = labelLen :: packet.bytes.drop (offset + 1) := by
        rw [List.drop_eq_getElem_cons hlt, hbyte]
      rw [nameEnd_some hget, hdrop]
      split_ifs with htop hzero hlong
      · exact .inr ⟨_, rfl⟩
      · subst hzero
        exact .inl ⟨[], _, rfl⟩
      · exact .inr ⟨_, rfl⟩
      · have hle : labelLen.toNat ≤ 63 := (topBits_eq_zero_iff labelLen).mp (not_not.mp htop)
        have hpos : 0 < labelLen.toNat := Nat.pos_of_ne_zero fun h => hzero (UInt8.toNat_inj.mp h)
        rcases ih _ (by omega) (offset + 1 + labelLen.toNat) rfl with ⟨name, rest, hname⟩ | herror
        · left
          have hmore : (packet.bytes.drop (offset + 1)).drop labelLen.toNat = nameWire name ++ rest := by
            rw [List.drop_drop, hname]
          have hlength : ((packet.bytes.drop (offset + 1)).take labelLen.toNat).length = labelLen.toNat := by
            rw [List.length_take, List.length_drop]
            omega
          refine ⟨⟨(packet.bytes.drop (offset + 1)).take labelLen.toNat, by omega, by omega⟩ :: name, rest, ?_⟩
          rw [nameWire_cons]
          dsimp only
          rw [hlength, UInt8.ofNat_toNat, List.cons_append, List.append_assoc, ← hmore, List.take_append_drop]
        · exact .inr herror

theorem Question.length_wire (question : Question) :
    question.wire.length = (nameWire question.name).length + 4 := by simp [Question.wire]

theorem u16At_flags {rest bytes : List UInt8} {header : Header} (h : bytes = header.wire ++ rest) :
    u16At bytes 2 3 = .ok header.flags := by
  have hsplit : bytes = u16Wire header.id ++ (u16Wire header.flags ++ (u16Wire header.qdCount ++
      (u16Wire header.anCount ++ (u16Wire header.nsCount ++ (u16Wire header.arCount ++ rest))))) := by
    simp [h, Header.wire]
  exact u16At_wire header.flags hsplit rfl rfl

theorem u16At_qdCount {rest bytes : List UInt8} {header : Header} (h : bytes = header.wire ++ rest) :
    u16At bytes 4 5 = .ok header.qdCount := by
  have hsplit : bytes = (u16Wire header.id ++ u16Wire header.flags) ++ (u16Wire header.qdCount ++
      (u16Wire header.anCount ++ (u16Wire header.nsCount ++ (u16Wire header.arCount ++ rest)))) := by
    simp [h, Header.wire]
  exact u16At_wire header.qdCount hsplit rfl rfl

theorem firstQuestion_header {header : Header} {rest : List UInt8} (h : packet.bytes = header.wire ++ rest)
    (hcount : header.qdCount ≠ 0) :
    firstQuestion profile packet = (do
      let offset ← nameEnd profile packet dnsHeaderLen
      let endOffset ← addUsize profile offset 4
      if endOffset > packet.bytes.length then throw (.error "DNS question is missing qtype/qclass")
      let qtype ← u16At packet.bytes offset (offset + 1)
      return { qtype, endOffset }) := by
  have hlength : ¬ packet.bytes.length < dnsHeaderLen := by
    simp [h]
  unfold firstQuestion
  rw [if_neg hlength, u16At_qdCount h]
  simp only [ok_bind, hcount, if_false]

theorem firstQuestion_name {header : Header} {name : List Label} {rest : List UInt8}
    (h : packet.bytes = header.wire ++ (nameWire name ++ rest)) (hcount : header.qdCount ≠ 0) :
    firstQuestion profile packet = (do
      if rest.length < 4 then throw (.error "DNS question is missing qtype/qclass")
      let qtype ← u16At packet.bytes (dnsHeaderLen + (nameWire name).length) (dnsHeaderLen + (nameWire name).length + 1)
      return { qtype, endOffset := dnsHeaderLen + (nameWire name).length + 4 }) := by
  have hslice := packet.length_le
  have hmax : isizeMax + 4 < usizeSize := by decide
  have hlength : packet.bytes.length = dnsHeaderLen + (nameWire name).length + rest.length := by
    simp [h, Nat.add_assoc]
  have hadd : (addUsize profile (dnsHeaderLen + (nameWire name).length) 4 : Exec String Nat) =
      .ok (dnsHeaderLen + (nameWire name).length + 4) := addUsize_ok profile (by omega)
  have hend : dnsHeaderLen + (nameWire name).length + 4 > packet.bytes.length ↔ rest.length < 4 := by omega
  rw [firstQuestion_header h hcount, nameEnd_wire name h header.length_wire, ok_bind, hadd]
  simp only [ok_bind, hend]

theorem firstQuestion_wire {header : Header} {question : Question} {rest : List UInt8}
    (h : packet.bytes = header.wire ++ (question.wire ++ rest)) (hcount : header.qdCount ≠ 0) :
    firstQuestion profile packet = .ok ⟨question.qtype, header.wire.length + question.wire.length⟩ := by
  have hname : packet.bytes = header.wire ++ (nameWire question.name ++
      (u16Wire question.qtype ++ (u16Wire question.qclass ++ rest))) := by
    simp [h, Question.wire]
  have hqtype : u16At packet.bytes (dnsHeaderLen + (nameWire question.name).length)
      (dnsHeaderLen + (nameWire question.name).length + 1) = .ok question.qtype := by
    rw [← List.append_assoc] at hname
    exact u16At_wire question.qtype hname (by simp) rfl
  rw [firstQuestion_name hname hcount, if_neg (by simp; omega), hqtype, header.length_wire, question.length_wire]
  rfl

theorem firstQuestion_cases (profile : Profile) (packet : Slice) :
    (∃ (header : Header) (question : Question) (rest : List UInt8),
      packet.bytes = header.wire ++ (question.wire ++ rest) ∧ header.qdCount ≠ 0) ∨
      ∃ text, firstQuestion profile packet = .error (.error text) := by
  by_cases hshort : packet.bytes.length < dnsHeaderLen
  · right
    unfold firstQuestion
    rw [if_pos hshort]
    exact ⟨_, rfl⟩
  obtain ⟨header, hheader⟩ := @exists_header (packet.bytes.take dnsHeaderLen) (by rw [List.length_take]; omega)
  have hbytes : packet.bytes = header.wire ++ packet.bytes.drop dnsHeaderLen := by rw [hheader, List.take_append_drop]
  by_cases hcount : header.qdCount = 0
  · right
    unfold firstQuestion
    rw [if_neg hshort, u16At_qdCount hbytes]
    simp only [ok_bind, hcount, if_true]
    exact ⟨_, rfl⟩
  rcases nameEnd_cases profile packet dnsHeaderLen with ⟨name, rest, hname⟩ | ⟨text, herror⟩
  · rw [hname] at hbytes
    by_cases hrest : rest.length < 4
    · right
      rw [firstQuestion_name hbytes hcount, if_pos hrest]
      exact ⟨_, rfl⟩
    · left
      match rest, hrest with
      | a :: b :: c :: d :: rest, _ =>
        refine ⟨header, ⟨name, .ofNat (beNat [a, b]), .ofNat (beNat [c, d])⟩, rest, ?_, hcount⟩
        rw [hbytes]
        simp [Question.wire, u16Wire_beNat]
      | [], hrest | [_], hrest | [_, _], hrest | [_, _, _], hrest => simp at hrest
  · right
    rw [firstQuestion_header hbytes hcount, herror]
    exact ⟨text, rfl⟩

end

/-- `first_question` never panics. It succeeds exactly on a header with a question count, a name of
labels, and the two fields behind it, and returns the type and the end of that question. -/
theorem firstQuestion_iff (profile : Profile) (packet : Slice) :
    (∀ why, firstQuestion profile packet ≠ .error (.panic why)) ∧
    ∀ found, firstQuestion profile packet = .ok found ↔
      ∃ (header : Header) (question : Question) (rest : List UInt8),
        packet.bytes = header.wire ++ (question.wire ++ rest) ∧ header.qdCount ≠ 0 ∧
          found.qtype = question.qtype ∧ found.endOffset = header.wire.length + question.wire.length ∧
          found.endOffset ≤ packet.bytes.length := by
  rcases firstQuestion_cases profile packet with ⟨header, question, rest, hbytes, hcount⟩ | ⟨text, herror⟩
  · have hfound := @firstQuestion_wire profile packet _ _ _ hbytes hcount
    rw [hfound]
    refine ⟨nofun, fun found => ⟨?_, ?_⟩⟩
    · rintro ⟨⟩
      refine ⟨header, question, rest, hbytes, hcount, rfl, rfl, ?_⟩
      simp [hbytes]
    · rintro ⟨header', question', rest', hbytes', hcount', hqtype, hend, -⟩
      rw [firstQuestion_wire hbytes' hcount'] at hfound
      rw [← hfound]
      cases found
      simp_all
  · rw [herror]
    refine ⟨nofun, fun found => ⟨nofun, ?_⟩⟩
    rintro ⟨header, question, rest, hbytes, hcount, -⟩
    rw [firstQuestion_wire hbytes hcount] at herror
    cases herror

end Hysteria.Mobile.Dns
