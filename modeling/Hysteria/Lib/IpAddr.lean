import Mathlib.Data.List.Forall2
import Mathlib.Data.List.TakeDrop
import Hysteria.Lib.Bytes
import Hysteria.Lib.Reader

/-! IP addresses and socket addresses as Rust's `core::net` parses them. -/
namespace Hysteria.Lib
open Reader

structure Ipv4Addr where
  a : UInt8
  b : UInt8
  c : UInt8
  d : UInt8
deriving DecidableEq, Repr

@[ext] structure Ipv6Addr where
  octets : List UInt8
  length_octets : octets.length = 16
deriving DecidableEq, Repr

inductive IpSocketAddr where
  | v4 (ip : Ipv4Addr) (port : Nat)
  | v6 (ip : Ipv6Addr) (port scope : Nat)
deriving DecidableEq, Repr

def IpSocketAddr.port : IpSocketAddr → Nat
  | .v4 _ port | .v6 _ port _ => port

def Ipv4Addr.octets (ip : Ipv4Addr) : List UInt8 := [ip.a, ip.b, ip.c, ip.d]

def octetFormat : Format := ⟨10, some 3, false, 2 ^ 8⟩
def groupFormat : Format := ⟨16, some 4, true, 2 ^ 16⟩
def portFormat : Format := ⟨10, none, true, 2 ^ 16⟩
def scopeFormat : Format := ⟨10, none, true, 2 ^ 32⟩

namespace Reader

/-- `read_ipv4_addr` -/
def ipv4 : Reader Ipv4Addr := do
  let a ← number octetFormat
  given '.'
  let b ← number octetFormat
  given '.'
  let c ← number octetFormat
  given '.'
  let d ← number octetFormat
  return ⟨.ofNat a, .ofNat b, .ofNat c, .ofNat d⟩

def separator (first : Bool) : Reader Unit := if first then pure () else given ':'

end Reader

def Ipv4Addr.groups (ip : Ipv4Addr) : List Nat := [beNat [ip.a, ip.b], beNat [ip.c, ip.d]]

def Ipv6Addr.ofGroups (groups : List Nat) : Ipv6Addr where
  octets := (groups.flatMap (beBytes 2)).takeD 16 0
  length_octets := List.takeD_length ..

namespace Reader

/-- An IPv4 address, where there is room for one behind the group that comes next. -/
def embeddedAddr (left : Nat) (first : Bool) : Reader (List Nat × Bool) :=
  if 0 < left then do
    separator first
    let ip ← ipv4
    return (ip.groups, true)
  else failure

/-- `read_groups`: at most so many groups, and whether an IPv4 address ends them. -/
def groups : Nat → Bool → Reader (List Nat × Bool)
  | 0, _ => pure ([], false)
  | left + 1, first =>
    embeddedAddr left first <|> (do
      separator first
      let group ← number groupFormat
      let (more, embedded) ← groups left false
      return (group :: more, embedded)) <|> pure ([], false)

/-- `read_ipv6_addr` -/
def ipv6 : Reader Ipv6Addr := do
  let (head, embedded) ← groups 8 true
  if head.length = 8 then return .ofGroups head
  else if embedded then failure
  else
    given ':'
    given ':'
    let (tail, _) ← groups (8 - (head.length + 1)) true
    return .ofGroups (head ++ List.replicate (8 - head.length - tail.length) 0 ++ tail)

def port : Reader Nat := do
  given ':'
  number portFormat

def scopeId : Reader Nat := do
  given '%'
  number scopeFormat

def socketAddrV4 : Reader IpSocketAddr := do
  let ip ← ipv4
  let port ← port
  return .v4 ip port

def socketAddrV6 : Reader IpSocketAddr := do
  given '['
  let ip ← ipv6
  let scope ← scopeId <|> pure 0
  given ']'
  let port ← port
  return .v6 ip port scope

end Reader

def parseIpv4 : Text → Option Ipv4Addr := whole ipv4

def parseIpv6 : Text → Option Ipv6Addr := whole ipv6

inductive IpAddr where
  | v4 (ip : Ipv4Addr)
  | v6 (ip : Ipv6Addr)
deriving DecidableEq, Repr

def parseIpAddr : Text → Option IpAddr := whole ((.v4 <$> ipv4) <|> (.v6 <$> ipv6))

def parseSocketAddr : Text → Option IpSocketAddr := whole (socketAddrV4 <|> socketAddrV6)

theorem toDigits_head {n : Nat} (h : (Nat.toDigits 10 n).head? = some '0') : n = 0 := by
  induction n using Nat.strongRecOn with
  | ind n ih =>
    by_cases hlt : n < 10
    · have hdigit : ∀ d < 10, d.digitChar = '0' → d = 0 := by decide
      rw [Nat.toDigits_of_lt_base hlt] at h
      exact hdigit n hlt (Option.some.inj h)
    · rw [Nat.toDigits_of_base_le (by decide) (by omega), List.head?_append_of_ne_nil _ Nat.toDigits_ne_nil] at h
      have := ih (n / 10) (by omega) h
      omega

theorem value_octet (n : UInt8) : octetFormat.value (Nat.toDigits 10 n.toNat) = some n.toNat := by
  have hlt : n.toNat < 256 := n.toNat_lt
  have hmax : ¬ 3 < (Nat.toDigits 10 n.toNat).length := by
    rw [Nat.not_lt, Nat.length_toDigits_le_iff (by decide) (by decide)]
    omega
  have hzero : ¬ ((Nat.toDigits 10 n.toNat).head? = some '0' ∧ 1 < (Nat.toDigits 10 n.toNat).length) := by
    rintro ⟨hhead, hlong⟩
    rw [toDigits_head hhead, Nat.toDigits_zero] at hlong
    exact absurd hlong (by decide)
  simp [Format.value, octetFormat, hmax, hzero, hlt]

theorem value_group {n : Nat} (h : n < 65536) : groupFormat.value (Nat.toDigits 16 n) = some n := by
  have hmax : ¬ 4 < (Nat.toDigits 16 n).length := by
    rw [Nat.not_lt, Nat.length_toDigits_le_iff (by decide) (by decide)]
    omega
  simp [Format.value, groupFormat, hmax, h]

theorem value_port {n : Nat} (h : n < 65536) : portFormat.value (Nat.toDigits 10 n) = some n := by
  simp [Format.value, portFormat, h]

def Ipv4Addr.text (ip : Ipv4Addr) : Text :=
  Nat.toDigits 10 ip.a.toNat ++ '.' :: (Nat.toDigits 10 ip.b.toNat ++ '.' ::
    (Nat.toDigits 10 ip.c.toNat ++ '.' :: Nat.toDigits 10 ip.d.toNat))

namespace Reader
variable {text rest : Text}

theorem ipv4_text (ip : Ipv4Addr) (hrest : Stops 10 rest) : ipv4 (ip.text ++ rest) = some (ip, rest) := by
  have hdot {more : Text} : Stops octetFormat.radix ('.' :: more) := stops_cons (by decide)
  simp only [Ipv4Addr.text, List.append_assoc, List.cons_append, ipv4,
    bind_of_eq (number_append (value_octet _) hdot), bind_of_eq (given_cons _),
    bind_of_eq (number_append (value_octet _) hrest), UInt8.ofNat_toNat, pure_apply]

theorem ipv4_of_noDot {before : Text} (hbefore : '.' ∉ before) (hrest : Stops 10 rest) (hdot : rest.head? ≠ some '.') :
    ipv4 (before ++ rest) = none := by
  cases hread : ipv4 (before ++ rest) with
  | none => rfl
  | some taken =>
    obtain ⟨n, between, hfirst, hmore⟩ := bind_eq_some.mp hread
    obtain ⟨⟨⟩, behind, hgiven, -⟩ := bind_eq_some.mp hmore
    obtain ⟨digits, htext, hvalue⟩ := number_eq_some hfirst
    rw [given_eq_some_iff.mp hgiven] at htext
    rcases List.append_eq_append_iff.mp htext with ⟨more, hdigits, hrest'⟩ | ⟨more, hbefore', hbehind⟩
    · cases more with
      | nil =>
        rw [List.nil_append] at hrest'
        exact absurd (by rw [hrest']; rfl) hdot
      | cons c more =>
        subst hrest'
        have := hrest c rfl
        have hdigit := Format.isDigit_of_value hvalue c (by simp [hdigits])
        rw [show octetFormat.radix = 10 from rfl, this] at hdigit
        cases hdigit
    · cases more with
      | nil => exact absurd (by rw [← List.nil_append rest, ← hbehind]; rfl) hdot
      | cons c more =>
        cases hbehind
        exact absurd (by simp [hbefore']) hbefore

theorem spares_ipv4 (hrest : Stops 10 rest) (hdot : rest.head? ≠ some '.') : Spares rest ipv4 := by
  have hoctet : Spares rest (number octetFormat) := spares_number hrest
  have hgiven : Spares rest (given '.') := spares_given hdot
  exact hoctet.bind fun _ => hgiven.bind fun _ => hoctet.bind fun _ => hgiven.bind fun _ =>
    hoctet.bind fun _ => hgiven.bind fun _ => hoctet.bind fun _ => .pure _

end Reader

def groupsBehind (groups : List Nat) : Text := groups.flatMap fun group => ':' :: Nat.toDigits 16 group

def groupsText : List Nat → Text
  | [] => []
  | group :: groups => Nat.toDigits 16 group ++ groupsBehind groups

def colonText (texts : List Text) : Text := [':'].intercalate texts

abbrev Denotes : List Text → List Nat → Prop := List.Forall₂ fun digits group => groupFormat.value digits = some group

theorem colonText_cons (digits : Text) (texts : List Text) :
    colonText (digits :: texts) = digits ++ texts.flatMap (':' :: ·) := by
  induction texts generalizing digits with
  | nil => simp [colonText]
  | cons next texts ih =>
    have hnext : [':'].intercalate (next :: texts) = next ++ texts.flatMap (':' :: ·) := ih next
    rw [colonText, List.intercalate_cons_cons, hnext, List.flatMap_cons, List.append_assoc]
    rfl

theorem groupsText_eq (groups : List Nat) : groupsText groups = colonText (groups.map (Nat.toDigits 16)) := by
  cases groups with
  | nil => rfl
  | cons group groups => rw [groupsText, List.map_cons, colonText_cons, groupsBehind, List.flatMap_map]

theorem denotes_toDigits {groups : List Nat} (h : ∀ group ∈ groups, group < 65536) :
    Denotes (groups.map (Nat.toDigits 16)) groups := by
  rw [Denotes, List.forall₂_map_left_iff]
  exact List.forall₂_same.mpr fun group hgroup => value_group (h group hgroup)

theorem isDigit_hex_of_decimal {c : Char} (h : isDigit 10 c) : isDigit 16 c := by
  simp only [isDigit, toDigit] at h ⊢
  split_ifs at h ⊢ <;> simp_all
  omega

theorem isDigit_of_mem_toDigits {n : Nat} : ∀ c ∈ Nat.toDigits 16 n, isDigit 16 c :=
  (numeral_digits (numeral_toDigits_hex n)).2

theorem mem_groupsText {groups : List Nat} {c : Char} (h : c ∈ groupsText groups) : isDigit 16 c ∨ c = ':' := by
  cases groups with
  | nil => cases h
  | cons group groups =>
    rcases List.mem_append.mp h with h | h
    · exact .inl (isDigit_of_mem_toDigits c h)
    · obtain ⟨next, -, hmem⟩ := List.mem_flatMap.mp h
      rcases List.mem_cons.mp hmem with rfl | hmem
      · exact .inr rfl
      · exact .inl (isDigit_of_mem_toDigits c hmem)

theorem dot_notMem_groupsText {groups : List Nat} : '.' ∉ groupsText groups :=
  fun h => absurd (mem_groupsText h) (by decide)

namespace Reader
variable {text rest after : Text} {first embedded : Bool} {left : Nat} {more : List Nat}

theorem Stops.decimal (h : Stops 16 text) : Stops 10 text := by
  intro c hc
  rw [Bool.eq_false_iff]
  intro hdigit
  have := h c hc
  rw [isDigit_hex_of_decimal hdigit] at this
  cases this

/-- The text goes on with neither a group nor an embedded address. -/
structure Ends (text : Text) : Prop where
  stops : Stops 16 text
  noDot : text.head? ≠ some '.'

theorem ends_nil : Ends [] := ⟨stops_nil, nofun⟩

theorem ends_cons {c : Char} (h : isDigit 16 c = false) (hc : c ≠ '.') : Ends (c :: text) :=
  ⟨stops_cons h, fun hhead => hc (Option.some.inj hhead)⟩

theorem ends_colon : Ends (':' :: text) := ends_cons (by decide) (by decide)

theorem Ends.behind {texts : List Text} (h : Ends rest) : Ends (texts.flatMap (':' :: ·) ++ rest) := by
  cases texts with
  | nil => exact h
  | cons digits texts => exact ends_colon

theorem embeddedAddr_none (h : ∀ between, separator first text = some ((), between) → ipv4 between = none) :
    embeddedAddr left first text = none := by
  rw [embeddedAddr]
  split
  · cases hsep : separator first text with
    | none => exact bind_of_none hsep _
    | some taken => exact (bind_of_eq hsep _).trans (bind_of_none (h _ hsep) _)
  · rfl

theorem groups_stop (h : ∀ between, separator first text = some ((), between) → Ends between) :
    groups left first text = some (([], false), text) := by
  cases left with
  | zero => rfl
  | succ left =>
    have hembedded : embeddedAddr left first text = none := by
      apply embeddedAddr_none
      intro between hsep
      have hends := h between hsep
      exact @ipv4_of_noDot between [] List.not_mem_nil hends.stops.decimal hends.noDot
    rw [groups, orElse_apply, hembedded]
    cases hsep : separator first text with
    | none =>
      rw [orElse_apply, bind_of_none hsep]
      rfl
    | some taken =>
      rw [orElse_apply, bind_of_eq hsep, bind_of_none (number_of_stops (h taken.2 hsep).stops)]
      rfl

theorem groups_nil : groups left first [] = some (([], false), []) := by
  apply groups_stop
  intro between hsep
  cases first with
  | true =>
    cases hsep
    exact ends_nil
  | false => cases hsep

theorem groups_colons : groups left first (':' :: ':' :: text) = some (([], false), ':' :: ':' :: text) := by
  apply groups_stop
  intro between hsep
  cases first with
  | true =>
    cases hsep
    exact ends_colon
  | false =>
    cases hsep
    exact ends_colon

theorem groups_cons {group : Nat} {digits : Text} (hgroup : groupFormat.value digits = some group) (hrest : Ends rest)
    (htext : separator first text = some ((), digits ++ rest))
    (hmore : groups left false rest = some ((more, embedded), after)) :
    groups (left + 1) first text = some ((group :: more, embedded), after) := by
  have hembedded : embeddedAddr left first text = none := by
    apply embeddedAddr_none
    intro between hsep
    cases htext.symm.trans hsep
    have hdot : '.' ∉ digits := fun hmem => absurd (Format.isDigit_of_value hgroup _ hmem) (by decide)
    exact ipv4_of_noDot hdot hrest.stops.decimal hrest.noDot
  have hnumber : number groupFormat (digits ++ rest) = some (group, rest) := number_append hgroup hrest.stops
  rw [groups, orElse_apply, hembedded, orElse_apply, bind_of_eq htext, bind_of_eq hnumber, bind_of_eq hmore]
  rfl

theorem groups_behind {texts : List Text} {found : List Nat} (hfound : Denotes texts found) (hrest : Ends rest)
    (hmore : groups left false rest = some ((more, embedded), after)) :
    groups (found.length + left) false (texts.flatMap (':' :: ·) ++ rest) = some ((found ++ more, embedded), after) := by
  induction hfound with
  | nil =>
    rw [List.length_nil, Nat.zero_add]
    exact hmore
  | @cons digits group texts found hgroup _ ih =>
    rw [List.length_cons, Nat.add_right_comm]
    apply groups_cons hgroup hrest.behind _ ih
    rw [List.flatMap_cons, List.cons_append, List.cons_append, List.append_assoc]
    exact given_cons ':'

theorem groups_text {texts : List Text} {found : List Nat} (hfound : Denotes texts found) (hrest : Ends rest)
    (hmore : groups left found.isEmpty rest = some ((more, embedded), after)) :
    groups (found.length + left) true (colonText texts ++ rest) = some ((found ++ more, embedded), after) := by
  cases hfound with
  | nil =>
    rw [List.length_nil, Nat.zero_add]
    exact hmore
  | cons hgroup hfound =>
    have hread := groups_behind hfound hrest hmore
    rw [List.length_cons, Nat.add_right_comm]
    apply groups_cons hgroup hrest.behind _ hread
    rw [colonText_cons, List.append_assoc]
    rfl

theorem groups_embedded {ip : Ipv4Addr} (hrest : Stops 10 rest)
    (htext : separator first text = some ((), ip.text ++ rest)) :
    groups (left + 2) first text = some ((ip.groups, true), rest) := by
  have hembedded : embeddedAddr (left + 1) first text = some ((ip.groups, true), rest) := by
    rw [embeddedAddr, if_pos (Nat.succ_pos left), bind_of_eq htext, bind_of_eq (ipv4_text ip hrest)]
    rfl
  rw [groups, orElse_apply, hembedded]
  rfl

theorem ipv6_compressed {texts : List Text} {head tail : List Nat} {embedded : Bool} (hlength : head.length < 8)
    (hhead : Denotes texts head)
    (hread : groups (8 - (head.length + 1)) true text = some ((tail, embedded), rest)) :
    ipv6 (colonText texts ++ ':' :: ':' :: text) =
      some (.ofGroups (head ++ List.replicate (8 - head.length - tail.length) 0 ++ tail), rest) := by
  have hgroups := groups_text hhead ends_colon (@groups_colons text _ (8 - head.length))
  rw [Nat.add_sub_cancel' (Nat.le_of_lt hlength), List.append_nil] at hgroups
  rw [ipv6, bind_of_eq hgroups]
  simp only [Nat.ne_of_lt hlength, Bool.false_eq_true, if_false, bind_of_eq (given_cons _), bind_of_eq hread,
    pure_apply]

theorem spares_separator (hcolon : rest.head? ≠ some ':') : Spares rest (separator first) := by
  cases first with
  | true => exact .pure ()
  | false => exact spares_given hcolon

theorem spares_groups (hrest : Ends rest) (hcolon : rest.head? ≠ some ':') : Spares rest (groups left first) := by
  induction left generalizing first with
  | zero => exact .pure _
  | succ left ih =>
    have hsep : Spares rest (separator first) := spares_separator hcolon
    have hembedded : Spares rest (embeddedAddr left first) :=
      .ite _ (hsep.bind fun _ => (spares_ipv4 hrest.stops.decimal hrest.noDot).bind fun _ => .pure _) .failure
    have hgroup : Spares rest (number groupFormat) := spares_number hrest.stops
    exact hembedded.orElse (.orElse (hsep.bind fun _ => hgroup.bind fun _ => ih.bind fun _ => .pure _) (.pure _))

theorem spares_ipv6 (hrest : Ends rest) (hcolon : rest.head? ≠ some ':') : Spares rest ipv6 := by
  have hgiven : Spares rest (given ':') := spares_given hcolon
  exact (spares_groups hrest hcolon).bind fun _ => .ite _ (.pure _) (.ite _ .failure
    (hgiven.bind fun _ => hgiven.bind fun _ => (spares_groups hrest hcolon).bind fun _ => .pure _))

def IsIpChar (c : Char) : Prop := isDigit 16 c ∨ c = ':' ∨ c = '.'

theorem takes_ipv4 : Takes (fun c => isDigit 10 c ∨ c = '.') ipv4 := by
  have hoctet : Takes (fun c => isDigit 10 c ∨ c = '.') (number octetFormat) := takes_number fun _ => .inl
  have hdot : Takes (fun c => isDigit 10 c ∨ c = '.') (given '.') := takes_given (.inr rfl)
  exact hoctet.bind fun _ => hdot.bind fun _ => hoctet.bind fun _ => hdot.bind fun _ =>
    hoctet.bind fun _ => hdot.bind fun _ => hoctet.bind fun _ => .pure _

theorem takes_ipv4_chars : Takes IsIpChar ipv4 :=
  takes_ipv4.mono fun _ h => h.elim (fun h => .inl (isDigit_hex_of_decimal h)) fun h => .inr (.inr h)

theorem takes_groups : Takes IsIpChar (groups left first) := by
  induction left generalizing first with
  | zero => exact .pure _
  | succ left ih =>
    have hsep : Takes IsIpChar (separator first) := .ite _ (.pure ()) (takes_given (.inr (.inl rfl)))
    have hgroup : Takes IsIpChar (number groupFormat) := takes_number fun _ => .inl
    have hembedded : Takes IsIpChar (embeddedAddr left first) :=
      .ite _ (hsep.bind fun _ => takes_ipv4_chars.bind fun _ => .pure _) .failure
    exact hembedded.orElse (.orElse (hsep.bind fun _ => hgroup.bind fun _ => ih.bind fun _ => .pure _) (.pure _))

theorem takes_ipv6 : Takes IsIpChar ipv6 := by
  have hgiven : Takes IsIpChar (given ':') := takes_given (.inr (.inl rfl))
  exact takes_groups.bind fun _ => .ite _ (.pure _) (.ite _ .failure
    (hgiven.bind fun _ => hgiven.bind fun _ => takes_groups.bind fun _ => .pure _))

end Reader

@[simp] theorem parseIpv4_text (ip : Ipv4Addr) : parseIpv4 ip.text = some ip := by
  rw [parseIpv4, whole_eq_some_iff, ← List.append_nil ip.text]
  exact ipv4_text ip stops_nil

theorem parseIpv6_groups {found : List Nat} (hlength : found.length = 8) (hfound : ∀ group ∈ found, group < 65536) :
    parseIpv6 (groupsText found) = some (.ofGroups found) := by
  have hread : groups (found.length + 0) true (colonText (found.map (Nat.toDigits 16)) ++ []) =
      some ((found ++ [], false), []) := groups_text (denotes_toDigits hfound) ends_nil rfl
  rw [hlength, List.append_nil, List.append_nil, ← groupsText_eq] at hread
  rw [parseIpv6, whole_eq_some_iff, ipv6, bind_of_eq hread]
  simp only [hlength, if_true, pure_apply]

theorem parseIpv6_colonText {headTexts tailTexts : List Text} {head tail : List Nat}
    (hlength : head.length + tail.length < 8) (hhead : Denotes headTexts head) (htail : Denotes tailTexts tail) :
    parseIpv6 (colonText headTexts ++ ':' :: ':' :: colonText tailTexts) =
      some (.ofGroups (head ++ List.replicate (8 - head.length - tail.length) 0 ++ tail)) := by
  have hread := groups_text htail ends_nil (@groups_nil _ (8 - (head.length + 1) - tail.length))
  rw [Nat.add_sub_cancel' (by omega), List.append_nil, List.append_nil] at hread
  rw [parseIpv6, whole_eq_some_iff]
  exact ipv6_compressed (by omega) hhead hread

theorem parseIpv6_compressed {head tail : List Nat} (hlength : head.length + tail.length < 8)
    (hhead : ∀ group ∈ head, group < 65536) (htail : ∀ group ∈ tail, group < 65536) :
    parseIpv6 (groupsText head ++ ':' :: ':' :: groupsText tail) =
      some (.ofGroups (head ++ List.replicate (8 - head.length - tail.length) 0 ++ tail)) := by
  rw [groupsText_eq, groupsText_eq]
  exact parseIpv6_colonText hlength (denotes_toDigits hhead) (denotes_toDigits htail)

theorem parseIpv6_embedded {found : List Nat} (hlength : found.length < 6) (hfound : ∀ group ∈ found, group < 65536)
    (hne : found ≠ []) (ip : Ipv4Addr) :
    parseIpv6 (':' :: ':' :: (groupsText found ++ ':' :: ip.text)) =
      some (.ofGroups (List.replicate (8 - (found.length + 2)) 0 ++ (found ++ ip.groups))) := by
  have hembedded : groups (5 - found.length + 2) found.isEmpty (':' :: ip.text) = some ((ip.groups, true), []) := by
    rw [List.isEmpty_eq_false_iff.mpr hne]
    apply groups_embedded stops_nil
    rw [List.append_nil]
    exact given_cons ':'
  have hread := groups_text (denotes_toDigits hfound) ends_colon hembedded
  rw [show found.length + (5 - found.length + 2) = 8 - (0 + 1) by omega] at hread
  rw [parseIpv6, whole_eq_some_iff, groupsText_eq]
  simpa [colonText, Ipv4Addr.groups] using @ipv6_compressed _ _ [] [] (found ++ ip.groups) _ (by decide) .nil hread

theorem Ipv6Addr.octets_ofGroups {groups : List Nat} (h : groups.length = 8) :
    (ofGroups groups).octets = groups.flatMap (beBytes 2) := by
  have hlength : (groups.flatMap (beBytes 2)).length = 16 := by simp [List.length_flatMap, h]
  exact (List.takeD_eq_take _ (Nat.le_of_eq hlength.symm)).trans (List.take_of_length_le (Nat.le_of_eq hlength))

namespace Reader
variable {text rest : Text} {first embedded : Bool} {left : Nat} {found : List Nat}

theorem groups_succ_cases (h : groups (left + 1) first text = some ((found, embedded), rest)) :
    (∃ between ip, separator first text = some ((), between) ∧ ipv4 between = some (ip, rest) ∧ found = ip.groups ∧
      embedded = true) ∨
    (∃ between group behind more, separator first text = some ((), between) ∧
      number groupFormat between = some (group, behind) ∧ groups left false behind = some ((more, embedded), rest) ∧
      found = group :: more) ∨
    (found = [] ∧ embedded = false ∧ rest = text) := by
  rw [groups] at h
  rcases of_orElse h with hembedded | h
  · left
    rw [embeddedAddr] at hembedded
    split at hembedded
    · obtain ⟨⟨⟩, between, hsep, hmore⟩ := bind_eq_some.mp hembedded
      obtain ⟨ip, behind, hip, hpure⟩ := bind_eq_some.mp hmore
      cases hpure
      exact ⟨between, ip, hsep, hip, rfl, rfl⟩
    · cases hembedded
  right
  rcases of_orElse h with hgroup | hpure
  · left
    obtain ⟨⟨⟩, between, hsep, hmore⟩ := bind_eq_some.mp hgroup
    obtain ⟨group, behind, hnumber, hmore⟩ := bind_eq_some.mp hmore
    obtain ⟨⟨more, last⟩, after, hgroups, hpure⟩ := bind_eq_some.mp hmore
    cases hpure
    exact ⟨between, group, behind, more, hsep, hnumber, hgroups, rfl⟩
  · right
    cases hpure
    exact ⟨rfl, rfl, rfl⟩

theorem separator_taken {between : Text} (h : separator first text = some ((), between)) :
    ∃ taken, text = taken ++ between ∧ 1 ≤ taken.count ':' + first.toNat := by
  cases first with
  | true =>
    cases h
    exact ⟨[], rfl, Nat.le_refl 1⟩
  | false => exact ⟨[':'], given_eq_some_iff.mp h, by simp⟩

theorem groups_taken (h : groups left first text = some ((found, embedded), rest)) :
    ∃ taken, text = taken ++ rest ∧ found.length ≤ taken.count ':' + first.toNat + embedded.toNat := by
  induction left generalizing first text found with
  | zero =>
    cases h
    exact ⟨[], rfl, Nat.zero_le _⟩
  | succ left ih =>
    rcases groups_succ_cases h with ⟨between, ip, hsep, hip, rfl, rfl⟩ |
      ⟨between, group, behind, more, hsep, hnumber, hgroups, rfl⟩ | ⟨rfl, -, rfl⟩
    · obtain ⟨front, rfl, hfront⟩ := separator_taken hsep
      obtain ⟨address, rfl, -⟩ := takes_ipv4 hip
      refine ⟨front ++ address, (List.append_assoc _ _ _).symm, ?_⟩
      rw [List.count_append]
      simp only [Ipv4Addr.groups, List.length_cons, List.length_nil, Bool.toNat_true]
      omega
    · obtain ⟨front, rfl, hfront⟩ := separator_taken hsep
      obtain ⟨digits, rfl, -⟩ := number_eq_some hnumber
      obtain ⟨more', rfl, hmore⟩ := ih hgroups
      refine ⟨front ++ (digits ++ more'), by simp only [List.append_assoc], ?_⟩
      rw [List.count_append, List.count_append, List.length_cons]
      simp only [Bool.toNat_false, Nat.add_zero] at hmore
      omega
    · exact ⟨[], rfl, Nat.zero_le _⟩

theorem ipv6_of_ipv4 {ip : Ipv4Addr} (h : ipv4 text = some (ip, rest)) : ipv6 text = none := by
  have hembedded : embeddedAddr 7 true text = some ((ip.groups, true), rest) := by
    rw [embeddedAddr, if_pos (by decide)]
    exact (bind_of_eq rfl _).trans (bind_of_eq h _)
  have hgroups : groups 8 true text = some ((ip.groups, true), rest) := by
    rw [groups, orElse_apply, hembedded]
    rfl
  rw [ipv6, bind_of_eq hgroups]
  rfl

end Reader

theorem colons_of_parseIpv6 {text : Text} {ip : Ipv6Addr} (h : parseIpv6 text = some ip) : 2 ≤ text.count ':' := by
  obtain ⟨⟨head, embedded⟩, between, hhead, hmore⟩ := bind_eq_some.mp (whole_eq_some_iff.mp h)
  obtain ⟨taken, rfl, hcount⟩ := groups_taken hhead
  have hbool := embedded.toNat_le
  rw [Bool.toNat_true] at hcount
  rw [List.count_append]
  dsimp only at hmore
  split at hmore
  · omega
  · split at hmore
    · cases hmore
    · obtain ⟨⟨⟩, behind, hfirst, hmore⟩ := bind_eq_some.mp hmore
      obtain ⟨⟨⟩, behind', hsecond, -⟩ := bind_eq_some.mp hmore
      rw [given_eq_some_iff.mp hfirst, given_eq_some_iff.mp hsecond, List.count_cons_self, List.count_cons_self]
      omega

theorem colon_mem_of_parseIpv6 {text : Text} {ip : Ipv6Addr} (h : parseIpv6 text = some ip) : ':' ∈ text :=
  List.count_pos_iff.mp (Nat.lt_of_succ_lt (colons_of_parseIpv6 h))

theorem ipv4_of_parseIpv6 {text : Text} {ip : Ipv6Addr} (h : parseIpv6 text = some ip) : ipv4 text = none := by
  rw [Option.eq_none_iff_forall_ne_some]
  rintro ⟨ip4, rest⟩ hip
  cases (ipv6_of_ipv4 hip).symm.trans (whole_eq_some_iff.mp h)

theorem parseIpAddr_v4 {text : Text} {ip : Ipv4Addr} (h : parseIpv4 text = some ip) :
    parseIpAddr text = some (.v4 ip) := by
  have hread : (IpAddr.v4 <$> ipv4) text = some (.v4 ip, []) := by
    rw [map_eq_pure_bind, bind_of_eq (whole_eq_some_iff.mp h)]
    rfl
  rw [parseIpAddr, whole_eq_some_iff, orElse_apply, hread]
  rfl

theorem parseIpAddr_v6 {text : Text} {ip : Ipv6Addr} (h : parseIpv6 text = some ip) :
    parseIpAddr text = some (.v6 ip) := by
  have hread : (IpAddr.v6 <$> ipv6) text = some (.v6 ip, []) := by
    rw [map_eq_pure_bind, bind_of_eq (whole_eq_some_iff.mp h)]
    rfl
  have hnone : (IpAddr.v4 <$> ipv4) text = none := by
    rw [map_eq_pure_bind, bind_of_none (ipv4_of_parseIpv6 h)]
  rw [parseIpAddr, whole_eq_some_iff, orElse_apply, hnone, hread]
  rfl

theorem parseIpAddr_cases {text : Text} {ip : IpAddr} (h : parseIpAddr text = some ip) :
    (∃ ip4, ip = .v4 ip4 ∧ parseIpv4 text = some ip4) ∨ ∃ ip6, ip = .v6 ip6 ∧ parseIpv6 text = some ip6 := by
  rw [parseIpAddr, whole_eq_some_iff] at h
  rcases of_orElse h with h | h
  · left
    rw [map_eq_pure_bind] at h
    obtain ⟨ip4, between, hip, hpure⟩ := bind_eq_some.mp h
    cases hpure
    exact ⟨ip4, rfl, whole_eq_some_iff.mpr hip⟩
  · right
    rw [map_eq_pure_bind] at h
    obtain ⟨ip6, between, hip, hpure⟩ := bind_eq_some.mp h
    cases hpure
    exact ⟨ip6, rfl, whole_eq_some_iff.mpr hip⟩

namespace Reader
variable {α β : Type} {text rest digits : Text} {n : Nat}

theorem port_digits (hvalue : portFormat.value digits = some n) : port (':' :: digits) = some (n, []) := by
  rw [port, bind_of_eq (given_cons _), ← List.append_nil digits]
  exact number_append hvalue stops_nil

def EndsInPort (reader : Reader α) : Prop :=
  ∀ ⦃text a rest⦄, reader text = some (a, rest) →
    ∃ before digits n, text = before ++ ':' :: (digits ++ rest) ∧ portFormat.value digits = some n

theorem endsInPort_port (f : Nat → α) : EndsInPort (port >>= fun n => pure (f n)) := by
  intro text a rest h
  obtain ⟨n, between, hport, hpure⟩ := bind_eq_some.mp h
  cases hpure
  obtain ⟨⟨⟩, behind, hgiven, hnumber⟩ := bind_eq_some.mp hport
  obtain ⟨digits, rfl, hvalue⟩ := number_eq_some hnumber
  exact ⟨[], digits, n, given_eq_some_iff.mp hgiven, hvalue⟩

theorem EndsInPort.bind {P : Char → Prop} {x : Reader α} {f : α → Reader β} (hx : Takes P x)
    (hf : ∀ a, EndsInPort (f a)) : EndsInPort (x >>= f) := by
  intro text b rest h
  obtain ⟨a, between, hfirst, hsecond⟩ := bind_eq_some.mp h
  obtain ⟨first, rfl, -⟩ := hx hfirst
  obtain ⟨before, digits, n, rfl, hvalue⟩ := hf a hsecond
  exact ⟨first ++ before, digits, n, (List.append_assoc _ _ _).symm, hvalue⟩

theorem endsInPort_v4 : EndsInPort socketAddrV4 := .bind takes_ipv4 fun _ => endsInPort_port _

theorem endsInPort_v6 : EndsInPort socketAddrV6 := by
  have hscope : Takes (fun _ => True) (scopeId <|> pure 0) :=
    .orElse ((takes_given trivial).bind fun _ => takes_number fun _ _ => trivial) (.pure 0)
  exact .bind (takes_given rfl) fun _ => .bind takes_ipv6 fun _ => .bind hscope fun _ =>
    .bind (takes_given rfl) fun _ => endsInPort_port _

end Reader

variable {host digits text : Text} {n : Nat}

theorem parseSocketAddr_port {addr : IpSocketAddr} (h : parseSocketAddr text = some addr) :
    ∃ before digits n, text = before ++ ':' :: digits ∧ portFormat.value digits = some n := by
  rw [parseSocketAddr, whole_eq_some_iff] at h
  have hends : ∃ before digits n, text = before ++ ':' :: (digits ++ []) ∧ portFormat.value digits = some n := by
    rcases of_orElse h with h | h
    · exact endsInPort_v4 h
    · exact endsInPort_v6 h
  simpa using hends

theorem parseSocketAddr_noColon (h : ':' ∉ text) : parseSocketAddr text = none := by
  rw [Option.eq_none_iff_forall_ne_some]
  intro addr haddr
  obtain ⟨before, digits, n, rfl, -⟩ := parseSocketAddr_port haddr
  simp at h

theorem parseSocketAddr_badPort (hport : portFormat.value digits = none) (hcolon : ':' ∉ digits) :
    parseSocketAddr (host ++ ':' :: digits) = none := by
  rw [Option.eq_none_iff_forall_ne_some]
  intro addr haddr
  obtain ⟨before, digits', n, htext, hvalue⟩ := parseSocketAddr_port haddr
  have hcolon' : ':' ∉ digits' := fun hmem => absurd (Format.isDigit_of_value hvalue _ hmem) (by decide)
  have hsplit := congrArg (rsplitOnce ':') htext
  rw [rsplitOnce_append _ hcolon, rsplitOnce_append _ hcolon'] at hsplit
  cases hsplit
  cases hport.symm.trans hvalue

theorem parseSocketAddr_v4 {ip : Ipv4Addr} (hhost : parseIpv4 host = some ip)
    (hport : portFormat.value digits = some n) : parseSocketAddr (host ++ ':' :: digits) = some (.v4 ip n) := by
  have hip : ipv4 (host ++ ':' :: digits) = some (ip, ':' :: digits) :=
    (spares_ipv4 (stops_cons (by decide)) (by simp)).of_whole hhost
  rw [parseSocketAddr, whole_eq_some_iff, orElse_apply, socketAddrV4, bind_of_eq hip, bind_of_eq (port_digits hport)]
  rfl

theorem parseSocketAddr_v6 {ip : Ipv6Addr} (hhost : parseIpv6 host = some ip)
    (hport : portFormat.value digits = some n) :
    parseSocketAddr ('[' :: (host ++ ']' :: ':' :: digits)) = some (.v6 ip n 0) := by
  have hip : ipv6 (host ++ ']' :: ':' :: digits) = some (ip, ']' :: ':' :: digits) :=
    (spares_ipv6 (ends_cons (by decide) (by decide)) (by simp)).of_whole hhost
  have hscope : (scopeId <|> pure 0) (']' :: ':' :: digits) = some (0, ']' :: ':' :: digits) := by
    rw [orElse_apply, scopeId, bind_of_none (given_of_head (by simp))]
    rfl
  have hbracket : ipv4 ('[' :: (host ++ ']' :: ':' :: digits)) = none :=
    ipv4_of_noDot List.not_mem_nil (stops_cons (by decide)) (by simp)
  rw [parseSocketAddr, whole_eq_some_iff, orElse_apply, socketAddrV4, bind_of_none hbracket, socketAddrV6,
    bind_of_eq (given_cons _), bind_of_eq hip, bind_of_eq hscope, bind_of_eq (given_cons _),
    bind_of_eq (port_digits hport)]
  rfl

theorem parseSocketAddr_name (hhost : parseIpv4 host = none) (hbracket : host.head? ≠ some '[') :
    parseSocketAddr (host ++ ':' :: digits) = none := by
  have hv6 : socketAddrV6 (host ++ ':' :: digits) = none := by
    apply bind_of_none (given_of_head _)
    cases host with
    | nil => simp
    | cons c host => exact hbracket
  rw [Option.eq_none_iff_forall_ne_some]
  intro addr haddr
  rw [parseSocketAddr, whole_eq_some_iff, orElse_apply, hv6] at haddr
  have hv4 : socketAddrV4 (host ++ ':' :: digits) = some (addr, []) := by simpa using haddr
  obtain ⟨ip, between, hip, hmore⟩ := bind_eq_some.mp hv4
  obtain ⟨n, behind, hport, hpure⟩ := bind_eq_some.mp hmore
  cases hpure
  obtain ⟨⟨⟩, behind, hgiven, hnumber⟩ := bind_eq_some.mp hport
  obtain ⟨port, rfl, hvalue⟩ := number_eq_some hnumber
  rw [given_eq_some_iff, List.append_nil] at hgiven
  rw [spares_ipv4 (stops_cons (by decide)) (by simp) host] at hip
  obtain ⟨⟨ip', left⟩, hread, htaken⟩ := Option.map_eq_some_iff.mp hip
  cases left with
  | nil => cases hhost.symm.trans (whole_eq_some_iff.mpr hread)
  | cons c left =>
    -- the port would contain the colon behind the host
    obtain ⟨-, hleft⟩ := Prod.mk.inj htaken
    rw [hgiven] at hleft
    have hmem : ':' ∈ port := by
      rw [← (List.cons.inj hleft).2]
      simp
    exact absurd (Format.isDigit_of_value hvalue _ hmem) (by decide)

end Hysteria.Lib
