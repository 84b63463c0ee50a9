import Hysteria.App.Socks5Udp
import Hysteria.Lib.IpAddr

/-! The addresses of `socks5.rs` as text and as bytes. -/
namespace Hysteria.App.Socks5
open Lib

def ipToString : IpSocketAddr → String
  | .v4 ip _ => ipv4ToString ip.a ip.b ip.c ip.d
  | .v6 ip _ _ => ipv6ToString ip.octets

def splitHostPort (address : String) : Except String (String × Nat) :=
  match parseSocketAddr address.toList with
  | some socketAddr => .ok (ipToString socketAddr, socketAddr.port)
  | none =>
    match rsplitOnce ':' address.toList with
    | none => .error s!"missing port in address {address}"
    | some (host, port) =>
      let host := (host.dropWhile (· = '[')).rdropWhile (· = ']')
      match fromStrRadix 16 10 port with
      | none => .error s!"invalid port in address {address}"
      | some port => .ok (String.ofList host, port)

def encodeAddress (address : String) : Except String (List UInt8) := do
  let (host, port) ← splitHostPort address
  match parseIpv4 host.toList with
  | some ip => return socks5AtypIpv4 :: (ip.octets ++ beBytes 2 port)
  | none =>
    match parseIpv6 host.toList with
    | some ip => return socks5AtypIpv6 :: (ip.octets ++ beBytes 2 port)
    | none =>
      if (utf8Bytes host).length > 255 then .error "SOCKS5 domain name is too long"
      else return socks5AtypDomain :: .ofNat (utf8Bytes host).length :: (utf8Bytes host ++ beBytes 2 port)

def buildUdpDatagram (address : String) (payload : List UInt8) : Except String (List UInt8) := do
  let bytes ← encodeAddress address
  return [0, 0, 0] ++ bytes ++ payload

@[simp] theorem toList_ipv4ToString (ip : Ipv4Addr) : (ipv4ToString ip.a ip.b ip.c ip.d).toList = ip.text := by
  have hoctet (n : UInt8) : (toString n).toList = Nat.toDigits 10 n.toNat := by
    change (toString n.toNat).toList = _
    rw [Nat.toString_eq_ofList_toDigits, String.toList_ofList]
  have hdot : (toString ".").toList = ['.'] := rfl
  simp [ipv4ToString, Ipv4Addr.text, hoctet, hdot]

@[simp] theorem toList_joinSegments (segments : List Nat) : (joinSegments segments).toList = groupsText segments := by
  cases segments with
  | nil => rfl
  | cons segment segments =>
    induction segments generalizing segment with
    | nil => simp [joinSegments, groupsText, groupsBehind]
    | cons next segments ih =>
      have hcolon : ":".toList = [':'] := rfl
      have hmore : (joinSegments (next :: segments)).toList = Nat.toDigits 16 next ++ groupsBehind segments := ih next
      have hjoin : joinSegments (segment :: next :: segments) =
          String.ofList (Nat.toDigits 16 segment) ++ ":" ++ joinSegments (next :: segments) :=
        String.intercalate_cons_cons
      rw [hjoin, String.toList_append, String.toList_append, hmore, hcolon, String.toList_ofList]
      simp [groupsText, groupsBehind]

theorem beBytes_beNat_pair (hi lo : UInt8) : beBytes 2 (beNat [hi, lo]) = [hi, lo] := by
  simpa using beBytes_beNat [hi, lo] 0

theorem flatMap_segments {octets : List UInt8} (h : octets.length % 2 = 0) : (segments octets).flatMap (beBytes 2) = octets := by
  fun_induction segments octets with
  | case1 hi lo rest ih =>
    rw [List.length_cons, List.length_cons] at h
    rw [List.flatMap_cons, beBytes_beNat_pair, ih (by omega)]
    rfl
  | case2 octets hshort =>
    match octets, h with
    | [], _ => rfl
    | hi :: lo :: rest, _ => exact absurd rfl (hshort hi lo rest)

theorem segments_lt {octets : List UInt8} : ∀ segment ∈ segments octets, segment < 65536 := by
  fun_induction segments octets with
  | case1 hi lo rest ih =>
    have hlt : beNat [hi, lo] < 256 ^ 2 := beNat_lt [hi, lo]
    rw [List.forall_mem_cons]
    exact ⟨by omega, ih⟩
  | case2 octets hshort => nofun

theorem length_segments {octets : List UInt8} (h : octets.length = 16) : (segments octets).length = 8 := by
  have hlength := congrArg List.length (flatMap_segments (show octets.length % 2 = 0 by omega))
  simp [List.length_flatMap] at hlength
  omega

def IsRun (segments : List Nat) (run : Nat × Nat) : Prop :=
  ∀ i, run.1 ≤ i → i < run.1 + run.2 → segments[i]? = some 0

theorem isRun_empty {segments : List Nat} {start : Nat} : IsRun segments (start, 0) := by
  intro i hstart hend
  omega

theorem IsRun.grow {segments : List Nat} {start len : Nat} (h : IsRun segments (start, len))
    (hnext : segments[start + len]? = some 0) : IsRun segments (start, len + 1) := by
  intro i hstart hend
  by_cases hlast : i = start + len
  · rwa [hlast]
  · exact h i hstart (by dsimp only at hend ⊢; omega)

/-- What the scan carries in front of the segment `i`: two runs of zeros, of which the current one
ends there unless it is empty. -/
structure Scanned (segments : List Nat) (i : Nat) (runs : (Nat × Nat) × (Nat × Nat)) : Prop where
  longest : IsRun segments runs.1
  current : IsRun segments runs.2
  ends : runs.2.2 ≠ 0 → runs.2.1 + runs.2.2 = i

def scanZeros (runs : (Nat × Nat) × (Nat × Nat)) (entry : Nat × Nat) : (Nat × Nat) × (Nat × Nat) :=
  if entry.1 = 0 then
    let current := if runs.2.2 = 0 then (entry.2, 1) else (runs.2.1, runs.2.2 + 1)
    (if current.2 > runs.1.2 then current else runs.1, current)
  else (runs.1, (0, 0))

theorem Scanned.step {segments : List Nat} {i segment : Nat} {runs : (Nat × Nat) × (Nat × Nat)}
    (h : Scanned segments i runs) (hsegment : segments[i]? = some segment) :
    Scanned segments (i + 1) (scanZeros runs (segment, i)) := by
  rw [scanZeros]
  split
  · next hzero =>
    obtain rfl : segment = 0 := hzero
    have hcurrent : ∃ current, (if runs.2.2 = 0 then (i, 1) else (runs.2.1, runs.2.2 + 1)) = current ∧
        IsRun segments current ∧ current.1 + current.2 = i + 1 := by
      split
      · exact ⟨_, rfl, IsRun.grow isRun_empty hsegment, rfl⟩
      · next hrun =>
        have hend := h.ends hrun
        exact ⟨_, rfl, h.current.grow (by rw [hend, hsegment]), by dsimp only; omega⟩
    obtain ⟨current, heq, hrun, hend⟩ := hcurrent
    dsimp only
    rw [heq]
    refine ⟨?_, hrun, fun _ => hend⟩
    dsimp only
    split
    · exact hrun
    · exact h.longest
  · exact ⟨h.longest, isRun_empty, fun hne => absurd rfl hne⟩

theorem Scanned.run {segments done todo : List Nat} {runs : (Nat × Nat) × (Nat × Nat)}
    (h : Scanned segments done.length runs) (hsegments : segments = done ++ todo) :
    Scanned segments segments.length ((todo.zipIdx done.length).foldl scanZeros runs) := by
  induction todo generalizing done runs with
  | nil =>
    rw [List.append_nil] at hsegments
    rw [hsegments] at h ⊢
    exact h
  | cons segment todo ih =>
    have hlength : (done ++ [segment]).length = done.length + 1 := by simp
    have hstep := h.step (show segments[done.length]? = some segment by simp [hsegments])
    rw [← hlength] at hstep
    rw [List.zipIdx_cons, List.foldl_cons, ← hlength]
    exact ih hstep (by rw [hsegments, List.append_assoc]; rfl)

theorem isRun_longestZeros (segments : List Nat) : IsRun segments (longestZeros segments) :=
  (@Scanned.run segments [] segments _ ⟨isRun_empty, isRun_empty, fun hne => absurd rfl hne⟩ rfl).longest

theorem eq_of_isRun {segments : List Nat} {start len : Nat} (h : IsRun segments (start, len)) (hlen : 0 < len) :
    start + len ≤ segments.length ∧
      segments = segments.take start ++ List.replicate len 0 ++ segments.drop (start + len) := by
  have hlast : segments[start + len - 1]? = some 0 := h _ (by dsimp only; omega) (by dsimp only; omega)
  have hroom : start + len ≤ segments.length := by
    have := (List.getElem?_eq_some_iff.mp hlast).1
    omega
  have hzeros : (segments.drop start).take len = List.replicate len 0 := by
    rw [List.eq_replicate_iff]
    refine ⟨by simp; omega, fun b hb => ?_⟩
    obtain ⟨i, hi⟩ := List.mem_iff_getElem?.mp hb
    rw [List.getElem?_take, List.getElem?_drop] at hi
    split at hi
    · next hlt => exact Option.some.inj (hi.symm.trans (h _ (Nat.le_add_right _ _) (Nat.add_lt_add_left hlt _)))
    · cases hi
  refine ⟨hroom, ?_⟩
  rw [← hzeros, List.append_assoc, ← List.drop_drop, List.take_append_drop, List.take_append_drop]

theorem toList_ipv6ToString (octets : List UInt8) :
    (∃ ip : Ipv4Addr, octets = [0, 0, 0, 0, 0, 0, 0, 0, 0, 0, 0xff, 0xff, ip.a, ip.b, ip.c, ip.d] ∧
      (ipv6ToString octets).toList = ':' :: ':' :: (groupsText [0xffff] ++ ':' :: ip.text)) ∨
    (∃ start len, 0 < len ∧ IsRun (segments octets) (start, len) ∧ (ipv6ToString octets).toList =
      groupsText ((segments octets).take start) ++ ':' :: ':' :: groupsText ((segments octets).drop (start + len))) ∨
    (ipv6ToString octets).toList = groupsText (segments octets) := by
  unfold ipv6ToString
  split
  case h_1 a b c d =>
    refine .inl ⟨⟨a, b, c, d⟩, rfl, ?_⟩
    rw [String.toList_append, toList_ipv4ToString ⟨a, b, c, d⟩]
    rfl
  case h_2 =>
    dsimp only
    split
    · next hlen =>
      refine .inr (.inl ⟨(longestZeros (segments octets)).1, (longestZeros (segments octets)).2,
        Nat.lt_of_succ_lt hlen, isRun_longestZeros _, ?_⟩)
      simp
    · exact .inr (.inr (toList_joinSegments _))

theorem parseIpv6_ipv6ToString (ip : Ipv6Addr) : parseIpv6 (ipv6ToString ip.octets).toList = some ip := by
  have hlength := length_segments ip.length_octets
  have hsegments : Ipv6Addr.ofGroups (segments ip.octets) = ip := by
    ext1
    rw [Ipv6Addr.octets_ofGroups hlength, flatMap_segments (by rw [ip.length_octets])]
  obtain ⟨ip4, hoctets, htext⟩ | ⟨start, len, hlen, hrun, htext⟩ | htext := toList_ipv6ToString ip.octets
  · have hmapped : segments ip.octets = List.replicate 5 0 ++ ([0xffff] ++ ip4.groups) := by
      rw [hoctets]
      rfl
    rw [htext, parseIpv6_embedded (by decide) (by decide) (by decide), ← hsegments, hmapped]
    rfl
  · obtain ⟨hroom, hzeros⟩ := eq_of_isRun hrun hlen
    have hcount : 8 - ((segments ip.octets).take start).length - ((segments ip.octets).drop (start + len)).length = len := by
      rw [List.length_take, List.length_drop]
      omega
    rw [htext, parseIpv6_compressed (by rw [List.length_take, List.length_drop]; omega)
      (fun group hgroup => segments_lt group (List.mem_of_mem_take hgroup))
      (fun group hgroup => segments_lt group (List.mem_of_mem_drop hgroup)), hcount, ← hzeros, hsegments]
  · rw [htext, parseIpv6_groups hlength segments_lt, hsegments]

theorem parseIpv4_ipv6ToString (octets : List UInt8) : parseIpv4 (ipv6ToString octets).toList = none := by
  have hcolon {more : Text} : Reader.Stops 10 (':' :: more) := Reader.stops_cons (by decide)
  apply Reader.whole_of_none
  obtain ⟨ip, -, htext⟩ | ⟨start, len, -, -, htext⟩ | htext := toList_ipv6ToString octets
  · rw [htext]
    exact Reader.ipv4_of_noDot List.not_mem_nil hcolon (by simp)
  · rw [htext]
    exact Reader.ipv4_of_noDot dot_notMem_groupsText hcolon (by simp)
  · rw [htext, ← List.append_nil (groupsText _)]
    exact Reader.ipv4_of_noDot dot_notMem_groupsText Reader.stops_nil (by simp)

@[simp] theorem toList_hostPort (host : String) (port : Nat) :
    s!"{host}:{port}".toList = host.toList ++ ':' :: Nat.toDigits 10 port := by
  have hcolon : (toString ":").toList = [':'] := rfl
  have hhost : toString host = host := rfl
  simp [hcolon, hhost]

@[simp] theorem toList_bracketed (host : String) (port : Nat) :
    s!"[{host}]:{port}".toList = '[' :: (host.toList ++ ']' :: ':' :: Nat.toDigits 10 port) := by
  have hopen : (toString "[").toList = ['['] := rfl
  have hclose : (toString "]:").toList = [']', ':'] := rfl
  have hhost : toString host = host := rfl
  simp [hopen, hclose, hhost]

end Hysteria.App.Socks5
