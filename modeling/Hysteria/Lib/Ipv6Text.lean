import Hysteria.Lib.IpAddr

/-! The texts of IPv6 addresses by their groups, and what a text loses with its last group. -/
namespace Hysteria.Lib
open Reader

variable {text front last : Text} {texts tailTexts : List Text} {found : List Nat} {ip : Ipv6Addr}

def IsGroup (digits : Text) : Prop := digits ≠ [] ∧ ∀ c ∈ digits, isDigit 16 c

theorem isGroup_of_value {group : Nat} {digits : Text} (h : groupFormat.value digits = some group) : IsGroup digits :=
  numeral_digits (Format.numeral_of_value h).1

theorem Denotes.isGroup (h : Denotes texts found) : ∀ digits ∈ texts, IsGroup digits := by
  induction h with
  | nil => nofun
  | cons hgroup _ ih => exact List.forall_mem_cons.mpr ⟨isGroup_of_value hgroup, ih⟩

theorem Denotes.lt (h : Denotes texts found) : ∀ group ∈ found, group < 65536 := by
  induction h with
  | nil => nofun
  | cons hgroup _ ih => exact List.forall_mem_cons.mpr ⟨(Format.numeral_of_value hgroup).2, ih⟩

theorem Denotes.forall_zero_iff (h : Denotes texts found) :
    (∀ group ∈ found, group = 0) ↔ ∀ digits ∈ texts, digits ≠ [] ∧ ∀ c ∈ digits, c = '0' := by
  induction h with
  | nil => simp
  | @cons digits group texts found hgroup _ ih =>
    have hnumeral := (Format.numeral_of_value hgroup).1
    rw [List.forall_mem_cons, List.forall_mem_cons, ih, ← numeral_eq_zero_iff (by decide : 0 < 16)]
    exact and_congr_left' ⟨fun hzero => hzero ▸ hnumeral, fun hzero => Option.some.inj (hnumeral.symm.trans hzero)⟩

theorem IsGroup.notMem {digits : Text} {c : Char} (h : IsGroup digits) (hc : isDigit 16 c = false) : c ∉ digits :=
  fun hmem => Bool.false_ne_true (hc.symm.trans (h.2 c hmem))

theorem mem_colonText {c : Char} (h : c ∈ colonText texts) : c = ':' ∨ ∃ digits ∈ texts, c ∈ digits := by
  cases texts with
  | nil => cases h
  | cons digits texts =>
    rw [colonText_cons, List.mem_append, List.mem_flatMap] at h
    rcases h with h | ⟨other, hother, h⟩
    · exact .inr ⟨digits, List.mem_cons_self, h⟩
    · rcases List.mem_cons.mp h with rfl | h
      · exact .inl rfl
      · exact .inr ⟨other, List.mem_cons_of_mem _ hother, h⟩

theorem dot_notMem_colonText (h : ∀ digits ∈ texts, IsGroup digits) : '.' ∉ colonText texts := by
  intro hmem
  rcases mem_colonText hmem with heq | ⟨digits, hdigits, hmem⟩
  · cases heq
  · exact (h digits hdigits).notMem (by decide) hmem

theorem colonText_concat (hne : texts ≠ []) (digits : Text) :
    colonText (texts ++ [digits]) = colonText texts ++ ':' :: digits := by
  obtain ⟨first, texts, rfl⟩ := List.exists_cons_of_ne_nil hne
  rw [List.cons_append, colonText_cons, colonText_cons, List.flatMap_append]
  simp

theorem cons_colonText (hne : texts ≠ []) : ':' :: colonText texts = texts.flatMap (':' :: ·) := by
  obtain ⟨first, texts, rfl⟩ := List.exists_cons_of_ne_nil hne
  rw [colonText_cons, List.flatMap_cons]
  rfl

theorem colons_nil (front : Text) : front ++ ':' :: ':' :: colonText [] = front ++ [':'] ++ ':' :: [] := by
  rw [List.append_assoc]
  rfl

theorem colons_concat (front digits : Text) (texts : List Text) :
    front ++ ':' :: ':' :: colonText (texts ++ [digits]) = front ++ ':' :: texts.flatMap (':' :: ·) ++ ':' :: digits := by
  rw [cons_colonText (by simp), List.flatMap_append]
  simp

theorem getLast?_colonText (h : ∀ digits ∈ texts, IsGroup digits) : (colonText texts).getLast? ≠ some ':' := by
  rcases texts.eq_nil_or_concat' with rfl | ⟨init, digits, rfl⟩
  · nofun
  have hdigits := h digits (by simp)
  have hlast : (colonText (init ++ [digits])).getLast? = digits.getLast? := by
    by_cases hinit : init = []
    · subst hinit
      simp [colonText]
    · rw [colonText_concat hinit, ← List.singleton_append, ← List.append_assoc, List.getLast?_append_of_ne_nil _ hdigits.1]
  rw [hlast]
  exact fun heq => hdigits.notMem (by decide) (List.mem_of_getLast? heq)

theorem splitOn_colonText (hne : texts ≠ []) (h : ∀ digits ∈ texts, IsGroup digits) :
    (colonText texts).splitOn ':' = texts :=
  List.splitOn_intercalate _ (fun digits hdigits => (h digits hdigits).notMem (by decide)) hne

theorem splitOn_colons (front tail : Text) :
    (front ++ ':' :: ':' :: tail).splitOn ':' = front.splitOn ':' ++ [] :: tail.splitOn ':' := by
  have htail : (':' :: tail).splitOn ':' = [] :: tail.splitOn ':' := List.splitOnP_append_cons [] tail rfl
  rw [← htail]
  exact List.splitOnP_append_cons front (':' :: tail) rfl

theorem colonText_ne_colons (h : ∀ digits ∈ texts, IsGroup digits) (front tail : Text) :
    colonText texts ≠ front ++ ':' :: ':' :: tail := by
  intro heq
  by_cases hne : texts = []
  · subst hne
    simp [colonText] at heq
  have hparts := congrArg (List.splitOn ':') heq
  rw [splitOn_colonText hne h, splitOn_colons] at hparts
  exact (h [] (by simp [hparts])).1 rfl

theorem colons_inj {front' : Text} {texts' : List Text} (hne : texts ≠ []) (h : ∀ digits ∈ texts, IsGroup digits)
    (hne' : texts' ≠ []) (h' : ∀ digits ∈ texts', IsGroup digits)
    (heq : front ++ ':' :: ':' :: colonText texts = front' ++ ':' :: ':' :: colonText texts') :
    front = front' ∧ texts = texts' := by
  have hparts := congrArg (List.splitOn ':') heq
  rw [splitOn_colons, splitOn_colons, splitOn_colonText hne h, splitOn_colonText hne' h'] at hparts
  obtain ⟨hfront, htexts⟩ := rsplit_inj (fun hmem => (h _ hmem).1 rfl) (fun hmem => (h' _ hmem).1 rfl) hparts
  have hjoined := congrArg ([':'].intercalate) hfront
  rw [List.intercalate_splitOn, List.intercalate_splitOn] at hjoined
  exact ⟨hjoined, htexts⟩

/-- An IPv4 address ends the text. -/
def Dotted (text : Text) : Prop := ∃ front address, text = front ++ address ∧ '.' ∈ address ∧ ':' ∉ address

structure Compressed (text : Text) (headTexts tailTexts : List Text) (head tail : List Nat) : Prop where
  length_lt : head.length + tail.length < 8
  denotes_head : Denotes headTexts head
  denotes_tail : Denotes tailTexts tail
  text_eq : text = colonText headTexts ++ ':' :: ':' :: colonText tailTexts

theorem Dotted.dot_mem (h : Dotted (front ++ ':' :: last)) : '.' ∈ last := by
  obtain ⟨before, address, heq, hdot, hcolon⟩ := h
  rcases List.append_eq_append_iff.mp heq with ⟨between, -, hsplit⟩ | ⟨between, -, hsplit⟩
  · cases between with
    | nil =>
      cases hsplit
      exact absurd List.mem_cons_self hcolon
    | cons c between =>
      rw [(List.cons.inj hsplit).2]
      exact List.mem_append_right _ hdot
  · exact absurd (hsplit ▸ by simp) hcolon

namespace Reader
variable {rest : Text} {first embedded : Bool} {left : Nat}

theorem groups_denoted (h : groups left first text = some ((found, false), rest)) :
    ∃ texts, Denotes texts found ∧ found.length ≤ left ∧
      text = (if first then colonText texts else texts.flatMap (':' :: ·)) ++ rest := by
  induction left generalizing first text found with
  | zero =>
    cases h
    exact ⟨[], .nil, Nat.zero_le _, by cases first <;> rfl⟩
  | succ left ih =>
    rcases groups_succ_cases h with ⟨-, -, -, -, -, hembedded⟩ |
      ⟨between, group, behind, more, hsep, hnumber, hgroups, rfl⟩ | ⟨rfl, -, rfl⟩
    · cases hembedded
    · obtain ⟨digits, rfl, hvalue⟩ := number_eq_some hnumber
      obtain ⟨texts, hmore, hlength, rfl⟩ := ih hgroups
      refine ⟨digits :: texts, .cons hvalue hmore, Nat.succ_le_succ hlength, ?_⟩
      cases first with
      | true =>
        cases hsep
        rw [if_pos rfl, colonText_cons, List.append_assoc]
        rfl
      | false =>
        rw [given_eq_some_iff.mp hsep]
        simp
    · exact ⟨[], .nil, Nat.zero_le _, by cases first <;> rfl⟩

theorem groups_dotted (h : groups left first text = some ((found, true), [])) : Dotted text := by
  induction left generalizing first text found with
  | zero => cases h
  | succ left ih =>
    rcases groups_succ_cases h with ⟨between, ip, hsep, hip, -, -⟩ |
      ⟨between, group, behind, more, hsep, hnumber, hgroups, -⟩ | ⟨-, hembedded, -⟩
    · obtain ⟨front, rfl, -⟩ := separator_taken hsep
      obtain ⟨address, hbetween, hchars⟩ := takes_ipv4 hip
      rw [List.append_nil] at hbetween
      subst hbetween
      refine ⟨front, between, rfl, ?_, fun hmem => absurd (hchars _ hmem) (by decide)⟩
      by_contra hdot
      have hnone := ipv4_of_noDot hdot stops_nil (by nofun)
      rw [List.append_nil, hip] at hnone
      cases hnone
    · obtain ⟨front, rfl, -⟩ := separator_taken hsep
      obtain ⟨digits, rfl, -⟩ := number_eq_some hnumber
      obtain ⟨front', address, rfl, haddress⟩ := ih hgroups
      exact ⟨front ++ (digits ++ front'), address, by simp, haddress⟩
    · cases hembedded

end Reader

theorem parseIpv6_cases (h : parseIpv6 text = some ip) :
    Dotted text ∨ (∃ texts found, found.length = 8 ∧ Denotes texts found ∧ text = colonText texts) ∨
      ∃ headTexts tailTexts head tail, Compressed text headTexts tailTexts head tail := by
  obtain ⟨⟨head, embedded⟩, between, hhead, hmore⟩ := bind_eq_some.mp (whole_eq_some_iff.mp h)
  dsimp only at hmore
  split at hmore
  · next hlength =>
    cases hmore
    cases embedded with
    | true => exact .inl (groups_dotted hhead)
    | false =>
      obtain ⟨texts, hdenotes, -, htext⟩ := groups_denoted hhead
      exact .inr (.inl ⟨texts, head, hlength, hdenotes, htext.trans (List.append_nil _)⟩)
  · next hlength =>
    cases embedded with
    | true => cases hmore
    | false =>
      obtain ⟨headTexts, hdenotes, hle, rfl⟩ := groups_denoted hhead
      obtain ⟨⟨⟩, behind, hfirst, hmore⟩ := bind_eq_some.mp hmore
      obtain ⟨⟨⟩, behind', hsecond, hmore⟩ := bind_eq_some.mp hmore
      obtain ⟨⟨tail, embedded⟩, after, htail, hpure⟩ := bind_eq_some.mp hmore
      cases hpure
      rw [given_eq_some_iff.mp hfirst, given_eq_some_iff.mp hsecond]
      cases embedded with
      | true =>
        obtain ⟨front, address, rfl, haddress⟩ := groups_dotted htail
        exact .inl ⟨colonText headTexts ++ ':' :: ':' :: front, address, by simp, haddress⟩
      | false =>
        obtain ⟨tailTexts, hdenotes', hle', rfl⟩ := groups_denoted htail
        exact .inr (.inr ⟨headTexts, tailTexts, head, tail, by omega, hdenotes, hdenotes', by simp⟩)

theorem flatMap_beBytes_inj {groups groups' : List Nat} (h : ∀ group ∈ groups, group < 65536)
    (h' : ∀ group ∈ groups', group < 65536) (heq : groups.flatMap (beBytes 2) = groups'.flatMap (beBytes 2)) :
    groups = groups' := by
  induction groups generalizing groups' with
  | nil =>
    cases groups' with
    | nil => rfl
    | cons group groups' => simp [beBytes] at heq
  | cons group groups ih =>
    cases groups' with
    | nil => simp [beBytes] at heq
    | cons group' groups' =>
      rw [List.forall_mem_cons] at h h'
      obtain ⟨hfirst, hmore⟩ := List.append_inj heq (by simp)
      have hnumber := congrArg beNat hfirst
      rw [beNat_beBytes_of_lt h.1, beNat_beBytes_of_lt h'.1] at hnumber
      rw [hnumber, ih h.2 h'.2 hmore]

theorem Ipv6Addr.ofGroups_inj {groups groups' : List Nat} (hlength : groups.length = 8) (hlength' : groups'.length = 8)
    (h : ∀ group ∈ groups, group < 65536) (h' : ∀ group ∈ groups', group < 65536) :
    ofGroups groups = ofGroups groups' ↔ groups = groups' := by
  refine ⟨fun heq => flatMap_beBytes_inj h h' ?_, congrArg ofGroups⟩
  rw [← octets_ofGroups hlength, heq, octets_ofGroups hlength']

theorem filled_lt {head tail : List Nat} {zeros : Nat} (hhead : ∀ group ∈ head, group < 65536)
    (htail : ∀ group ∈ tail, group < 65536) : ∀ group ∈ head ++ List.replicate zeros 0 ++ tail, group < 65536 := by
  refine List.forall_mem_append.mpr ⟨List.forall_mem_append.mpr ⟨hhead, ?_⟩, htail⟩
  intro group hgroup
  rw [List.eq_of_mem_replicate hgroup]
  decide

theorem cons_zero_eq_concat_iff {groups : List Nat} {group : Nat} :
    0 :: groups = groups ++ [group] ↔ ∀ other ∈ groups ++ [group], other = 0 := by
  constructor
  · intro h
    induction groups with
    | nil => simpa using h.symm
    | cons first groups ih =>
      obtain ⟨rfl, hmore⟩ := List.cons.inj h
      exact List.forall_mem_cons.mpr ⟨rfl, ih hmore⟩
  · intro h
    rw [List.eq_replicate_of_mem h]
    have hgroups := List.eq_replicate_of_mem (List.forall_mem_append.mp h).1
    rw [hgroups]
    simp [List.replicate_succ]

/-- Two groups or more stand behind two colons, and all of them are zero. -/
def EndsInZeros (text : Text) : Prop :=
  ∃ front groups, text = front ++ ':' :: ':' :: colonText groups ∧ 2 ≤ groups.length ∧
    ∀ digits ∈ groups, digits ≠ [] ∧ ∀ c ∈ digits, c = '0'

theorem isGroup_zeros {groups : List Text} (h : ∀ digits ∈ groups, digits ≠ [] ∧ ∀ c ∈ digits, c = '0') :
    ∀ digits ∈ groups, IsGroup digits :=
  fun digits hdigits => ⟨(h digits hdigits).1, fun c hc => (h digits hdigits).2 c hc ▸ by decide⟩

theorem EndsInZeros.last_zeros (h : EndsInZeros (front ++ ':' :: last)) (hcolon : ':' ∉ last) :
    last ≠ [] ∧ ∀ c ∈ last, c = '0' := by
  obtain ⟨before, groups, heq, hlength, hzeros⟩ := h
  rcases groups.eq_nil_or_concat' with rfl | ⟨init, digits, rfl⟩
  · cases hlength
  have hdigits := isGroup_zeros hzeros digits (by simp)
  rw [colons_concat] at heq
  rw [(rsplit_inj hcolon (hdigits.notMem (by decide)) heq).2]
  exact hzeros digits (by simp)

theorem not_endsInZeros_colonText (h : ∀ digits ∈ texts, IsGroup digits) : ¬ EndsInZeros (colonText texts) := by
  rintro ⟨front, groups, heq, -⟩
  exact colonText_ne_colons h front (colonText groups) heq

theorem Compressed.endsInZeros_iff {headTexts : List Text} {head tail : List Nat}
    (h : Compressed text headTexts tailTexts head tail) (hne : tailTexts ≠ []) :
    EndsInZeros text ↔ 2 ≤ tailTexts.length ∧ ∀ group ∈ tail, group = 0 := by
  rw [h.denotes_tail.forall_zero_iff]
  constructor
  · rintro ⟨front, groups, heq, hlength, hzeros⟩
    have hgroups : groups ≠ [] := List.ne_nil_of_length_pos (by omega)
    obtain ⟨-, rfl⟩ := colons_inj hne h.denotes_tail.isGroup hgroups (isGroup_zeros hzeros) (h.text_eq.symm.trans heq)
    exact ⟨hlength, hzeros⟩
  · exact fun hzeros => ⟨_, tailTexts, h.text_eq, hzeros⟩

theorem not_dotted_of_notMem (h : '.' ∉ text) : ¬ Dotted text := by
  rintro ⟨front, address, rfl, hdot, -⟩
  exact h (List.mem_append_right _ hdot)

theorem parseIpv6_short (hne : texts ≠ []) (h : ∀ digits ∈ texts, IsGroup digits) (hlength : texts.length < 8) :
    parseIpv6 (colonText texts) ≠ some ip := by
  intro hparsed
  rcases parseIpv6_cases hparsed with hdotted | ⟨texts', found, hlength', hdenotes, heq⟩ | ⟨_, _, _, _, hcompressed⟩
  · exact not_dotted_of_notMem (dot_notMem_colonText h) hdotted
  · have hcount := hdenotes.length_eq
    have hparts := congrArg (List.splitOn ':') heq
    rw [splitOn_colonText hne h, splitOn_colonText (List.ne_nil_of_length_pos (by omega)) hdenotes.isGroup] at hparts
    rw [hparts] at hlength
    omega
  · exact colonText_ne_colons h _ _ hcompressed.text_eq

theorem parseIpv6_colon (h : ∀ digits ∈ texts, IsGroup digits) : parseIpv6 (colonText texts ++ [':']) ≠ some ip := by
  intro hparsed
  rcases parseIpv6_cases hparsed with hdotted | ⟨texts', found, -, hdenotes, heq⟩ | ⟨_, tailTexts, _, _, hcompressed⟩
  · exact absurd hdotted.dot_mem List.not_mem_nil
  · exact getLast?_colonText hdenotes.isGroup (by rw [← heq, List.getLast?_concat])
  · have heq := hcompressed.text_eq
    have htail := hcompressed.denotes_tail.isGroup
    rcases tailTexts.eq_nil_or_concat' with rfl | ⟨init, digits, rfl⟩
    · rw [colons_nil] at heq
      have hhead := List.append_cancel_right heq
      exact getLast?_colonText h (by rw [hhead, List.getLast?_concat])
    · have hdigits := htail digits (by simp)
      rw [colons_concat] at heq
      exact hdigits.1 (rsplit_inj List.not_mem_nil (hdigits.notMem (by decide)) heq).2.symm

theorem Compressed.cut_iff {headTexts init : List Text} {digits : Text} {head tail : List Nat}
    (h : Compressed text headTexts (init ++ [digits]) head tail) (hparsed : parseIpv6 text = some ip) :
    parseIpv6 (colonText headTexts ++ ':' :: ':' :: colonText init) = some ip ↔ ∀ group ∈ tail, group = 0 := by
  obtain ⟨hlength, hhead, htail, rfl⟩ := h
  rw [parseIpv6_colonText hlength hhead htail] at hparsed
  cases hparsed
  have hcount := htail.length_eq
  rw [List.length_append, List.length_singleton] at hcount
  rcases tail.eq_nil_or_concat' with rfl | ⟨more, group, rfl⟩
  · cases hcount
  rw [List.length_append, List.length_singleton] at hcount hlength
  have hmore : Denotes init more := by
    have htake := List.forall₂_take_append _ _ _ htail
    rwa [List.take_append_of_le_length (by omega), List.take_of_length_le (by omega)] at htake
  have hzeros : 8 - head.length - more.length = 8 - head.length - (more ++ [group]).length + 1 := by simp; omega
  rw [parseIpv6_colonText (by omega) hhead hmore, Option.some_inj, Ipv6Addr.ofGroups_inj (by simp; omega) (by simp; omega)
    (filled_lt hhead.lt hmore.lt) (filled_lt hhead.lt htail.lt), List.append_assoc, List.append_assoc,
    List.append_cancel_left_eq, hzeros, List.replicate_succ', List.append_assoc, List.append_cancel_left_eq,
    List.singleton_append, cons_zero_eq_concat_iff]

theorem parseIpv6_cut_iff (hlast : last ≠ []) (hcolon : ':' ∉ last) (hdot : '.' ∉ last)
    (h : parseIpv6 (front ++ ':' :: last) = some ip) :
    parseIpv6 front = some ip ↔ EndsInZeros (front ++ ':' :: last) := by
  rcases parseIpv6_cases h with hdotted | ⟨texts, found, hlength, hdenotes, heq⟩ |
    ⟨headTexts, tailTexts, head, tail, hcompressed⟩
  · exact absurd hdotted.dot_mem hdot
  · refine iff_of_false ?_ (heq ▸ not_endsInZeros_colonText hdenotes.isGroup)
    have hcount := hdenotes.length_eq
    rcases texts.eq_nil_or_concat' with rfl | ⟨init, digits, rfl⟩
    · simp at hcount
      omega
    rw [List.length_append, List.length_singleton] at hcount
    have hgroups := List.forall_mem_append.mp hdenotes.isGroup
    have hinit : init ≠ [] := List.ne_nil_of_length_pos (by omega)
    rw [colonText_concat hinit] at heq
    rw [(rsplit_inj hcolon ((hgroups.2 digits (by simp)).notMem (by decide)) heq).1]
    exact parseIpv6_short hinit hgroups.1 (by omega)
  · have hgroups := hcompressed.denotes_tail.isGroup
    have heq := hcompressed.text_eq
    rcases tailTexts.eq_nil_or_concat' with rfl | ⟨init, digits, rfl⟩
    · rw [colons_nil] at heq
      exact absurd (rsplit_inj hcolon List.not_mem_nil heq).2 hlast
    rw [hcompressed.endsInZeros_iff (by simp), List.length_append, List.length_singleton]
    rw [colons_concat] at heq
    rw [(rsplit_inj hcolon ((hgroups digits (by simp)).notMem (by decide)) heq).1]
    by_cases hinit : init = []
    · subst hinit
      exact iff_of_false (parseIpv6_colon hcompressed.denotes_head.isGroup) (by simp)
    · have hlength := List.length_pos_of_ne_nil hinit
      rw [← cons_colonText hinit, hcompressed.cut_iff h]
      exact (and_iff_right (by omega)).symm

end Hysteria.Lib
