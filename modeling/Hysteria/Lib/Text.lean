import Mathlib.Algebra.Group.Nat.Defs
import Mathlib.Data.List.DropRight
import Mathlib.Data.List.Infix
import Hysteria.Lib.Search
import Hysteria.Lib.Utf8

/-! Text as a list of characters, with the operations of Rust's `str` that a
line-based protocol is read with. -/
namespace Hysteria.Lib

abbrev Text := List Char

def utf8 (text : Text) : List UInt8 := text.flatMap String.utf8EncodeChar

def fromUtf8 (bytes : List UInt8) : Option Text := bytes.toByteArray.utf8Decode?.map Array.toList

@[simp] theorem utf8_append (a b : Text) : utf8 (a ++ b) = utf8 a ++ utf8 b := List.flatMap_append

@[simp] theorem fromUtf8_utf8 (text : Text) : fromUtf8 (utf8 text) = some text := by
  change Option.map Array.toList text.utf8Encode.utf8Decode? = _
  rw [List.utf8Decode?_utf8Encode]
  rfl

theorem utf8_injective {a b : Text} (h : utf8 a = utf8 b) : a = b := by
  rw [← Option.some.injEq, ← fromUtf8_utf8, h, fromUtf8_utf8]

theorem fromUtf8_eq_some_iff {bytes : List UInt8} {text : Text} : fromUtf8 bytes = some text ↔ utf8 text = bytes := by
  constructor
  · intro h
    obtain ⟨chars, hchars, -⟩ := Option.map_eq_some_iff.mp h
    have hsome : bytes.toByteArray.utf8Decode?.isSome := by
      rw [hchars]
      rfl
    obtain ⟨decoded, hdecoded⟩ := ByteArray.isSome_utf8Decode?_iff.mp hsome
    have hbytes : bytes = utf8 decoded := by
      simpa [List.utf8Encode, utf8] using congrArg ByteArray.data hdecoded
    rw [hbytes, fromUtf8_utf8, Option.some.injEq] at h
    rw [hbytes, h]
  · rintro rfl
    exact fromUtf8_utf8 text

theorem toNat_ofNat_toNat {c : Char} (h : c.toNat < 128) : (UInt8.ofNat c.toNat).toNat = c.toNat := by
  rw [UInt8.toNat_ofNat', Nat.mod_eq_of_lt (by omega)]

theorem ofNat_toNat_ofNat_toNat {c : Char} (h : c.toNat < 128) : Char.ofNat (UInt8.ofNat c.toNat).toNat = c := by
  rw [toNat_ofNat_toNat h, Char.ofNat_toNat]

theorem utf8EncodeChar_of_lt {c : Char} (h : c.toNat < 128) : String.utf8EncodeChar c = [UInt8.ofNat c.toNat] := by
  have hle : c.val.toNat ≤ 127 := Nat.le_of_lt_succ h
  rw [String.utf8EncodeChar, if_pos hle]
  rfl

theorem byte_of_mem_utf8EncodeChar {c : Char} {b : UInt8} (h : b ∈ String.utf8EncodeChar c)
    (hc : c.toNat < 128) : b.toNat = c.toNat := by
  rw [utf8EncodeChar_of_lt hc, List.mem_singleton] at h
  rw [h, toNat_ofNat_toNat hc]

theorem toNat_of_mem_utf8EncodeChar {c : Char} {b : UInt8} (h : b ∈ String.utf8EncodeChar c)
    (hb : b.toNat < 128) : c.toNat = b.toNat := by
  rw [String.utf8EncodeChar] at h
  split at h
  case isTrue hle =>
    rw [List.mem_singleton.mp h, UInt8.toNat_ofNat', Nat.mod_eq_of_lt (by omega)]
    rfl
  case isFalse =>
    -- every byte of a longer encoding has its top bit set
    have hlow : ∀ n < 128, b ≠ UInt8.ofNat (n + 128) := by
      rintro n hn rfl
      rw [UInt8.toNat_ofNat', Nat.mod_eq_of_lt (by omega)] at hb
      omega
    exfalso
    split_ifs at h <;> simp only [List.mem_cons, List.not_mem_nil, or_false] at h
    · rcases h with h | h
      · exact hlow (_ + 64) (by omega) h
      · exact hlow _ (by omega) h
    · rcases h with h | h | h
      · exact hlow (_ + 96) (by omega) h
      · exact hlow _ (by omega) h
      · exact hlow _ (by omega) h
    · rcases h with h | h | h | h
      · exact hlow (_ + 112) (by omega) h
      · exact hlow _ (by omega) h
      · exact hlow _ (by omega) h
      · exact hlow _ (by omega) h

theorem mem_utf8 {text : Text} {c : Char} {b : UInt8} (hc : c.toNat = b.toNat) (hb : b.toNat < 128)
    (h : b ∈ utf8 text) : c ∈ text := by
  obtain ⟨d, hd, hmem⟩ := List.mem_flatMap.mp h
  have : d.toNat = c.toNat := (toNat_of_mem_utf8EncodeChar hmem hb).trans hc.symm
  rwa [← Char.toNat_inj.mp this]

theorem utf8_ne_nil {text : Text} (h : text ≠ []) : utf8 text ≠ [] := by
  obtain ⟨c, rest, rfl⟩ := List.exists_cons_of_ne_nil h
  have hpos := c.utf8Size_pos
  intro hnil
  have := congrArg List.length hnil
  simp only [utf8, List.flatMap_cons, List.length_append, String.length_utf8EncodeChar,
    List.length_nil] at this
  omega

theorem utf8_eq_cons {text : Text} {c : Char} {b : UInt8} {bytes : List UInt8} (hc : c.toNat = b.toNat)
    (hb : b.toNat < 128) (h : utf8 text = b :: bytes) : ∃ rest, text = c :: rest ∧ utf8 rest = bytes := by
  cases text with
  | nil => cases h
  | cons d rest =>
    have hbytes : String.utf8EncodeChar d ++ utf8 rest = b :: bytes := h
    obtain ⟨first, more, hd⟩ : ∃ first more, String.utf8EncodeChar d = first :: more := by
      apply List.exists_cons_of_length_pos
      rw [String.length_utf8EncodeChar]
      exact d.utf8Size_pos
    rw [hd, List.cons_append] at hbytes
    obtain ⟨rfl, hrest⟩ := List.cons.inj hbytes
    have hdn : d.toNat = first.toNat := toNat_of_mem_utf8EncodeChar (by simp [hd]) hb
    have hone : String.utf8EncodeChar d = [first] := by
      have hle : d.val.toNat ≤ 127 := by
        change d.toNat ≤ 127
        omega
      rw [String.utf8EncodeChar, if_pos hle]
      change [UInt8.ofNat d.toNat] = [first]
      rw [hdn, UInt8.ofNat_toNat]
    obtain rfl : d = c := Char.toNat_inj.mp (hdn.trans hc.symm)
    rw [hone] at hd
    cases hd
    exact ⟨rest, rfl, hrest⟩

theorem infix_of_utf8 {text : Text} {c d : Char} {a b : UInt8} (hc : c.toNat = a.toNat) (ha : a.toNat < 128)
    (hd : d.toNat = b.toNat) (hb : b.toNat < 128) (h : [a, b] <:+: utf8 text) : [c, d] <:+: text := by
  induction text with
  | nil => simp [utf8] at h
  | cons x text ih =>
    change [a, b] <:+: String.utf8EncodeChar x ++ utf8 text at h
    by_cases hmem : a ∈ String.utf8EncodeChar x
    · obtain rfl : x = c := Char.toNat_inj.mp ((toNat_of_mem_utf8EncodeChar hmem ha).trans hc.symm)
      rw [utf8EncodeChar_of_lt (hc ▸ ha), hc, UInt8.ofNat_toNat, List.singleton_append] at h
      rcases List.infix_cons_iff.mp h with h | h
      · obtain ⟨rest, hrest⟩ := (List.cons_prefix_cons.mp h).2
        obtain ⟨rest, rfl, -⟩ := utf8_eq_cons hd hb hrest.symm
        exact ⟨[], rest, rfl⟩
      · exact (ih h).trans (List.suffix_cons x text).isInfix
    · refine (ih ?_).trans (List.suffix_cons x text).isInfix
      by_contra hnot
      have hskip : findSeq [a, b] (String.utf8EncodeChar x ++ utf8 text) = _ := findSeq_skip hmem (utf8 text)
      rw [findSeq_eq_none_iff.mpr hnot] at hskip
      exact findSeq_eq_none_iff.mp hskip h

/-- `char::is_whitespace`: the characters with the Unicode property `White_Space`. -/
def isWhitespace (c : Char) : Bool :=
  let n := c.toNat
  (9 ≤ n && n ≤ 13) || n = 32 || n = 0x85 || n = 0xa0 || n = 0x1680 || (0x2000 ≤ n && n ≤ 0x200a) ||
    n = 0x2028 || n = 0x2029 || n = 0x202f || n = 0x205f || n = 0x3000

theorem isWhitespace_range {c : Char} (h : isWhitespace c) : c.toNat ≤ 32 ∨ 0x85 ≤ c.toNat := by
  simp only [isWhitespace, Bool.or_eq_true, Bool.and_eq_true, decide_eq_true_iff] at h
  omega

theorem toLower_cases (c : Char) :
    c.toLower = c ∨ (65 ≤ c.toNat ∧ c.toNat ≤ 90) ∧ c.toLower.toNat = c.toNat + 32 := by
  by_cases hupper : c.val ≥ 'A'.val ∧ c.val ≤ 'Z'.val
  · right
    have hlow : 65 ≤ c.toNat := UInt32.le_iff_toNat_le.mp hupper.1
    have hhigh : c.toNat ≤ 90 := UInt32.le_iff_toNat_le.mp hupper.2
    have hlower : c.toLower.toNat = (c.toNat + 32) % 2 ^ 32 := by
      unfold Char.toLower
      rw [dif_pos hupper]
      exact UInt32.toNat_add _ _
    omega
  · exact .inl (dif_neg hupper)

theorem toLower_of_isWhitespace {c : Char} (h : isWhitespace c) : c.toLower = c := by
  have hrange := isWhitespace_range h
  rcases toLower_cases c with hsame | ⟨hupper, -⟩
  · exact hsame
  · omega

theorem isWhitespace_of_toLower {c : Char} (h : isWhitespace c.toLower) : isWhitespace c := by
  have hrange := isWhitespace_range h
  rcases toLower_cases c with hsame | ⟨hupper, hlower⟩
  · rwa [hsame] at h
  · omega

def trimBy (p : Char → Bool) (text : Text) : Text := (text.dropWhile p).rdropWhile p

def trim (text : Text) : Text := trimBy isWhitespace text

structure Trimmed (p : Char → Bool) (text : Text) : Prop where
  head : ∀ c ∈ text.head?, ¬ p c
  last : ∀ c ∈ text.getLast?, ¬ p c

section
variable {p q : Char → Bool}

theorem Trimmed.of_forall {text : Text} (h : ∀ c ∈ text, ¬ p c) : Trimmed p text where
  head c hc := h c (List.mem_of_mem_head? hc)
  last c hc := h c (List.mem_of_mem_getLast? hc)

theorem Trimmed.of_any_eq_false {text : Text} (h : text.any p = false) : Trimmed p text :=
  .of_forall (List.any_eq_false.mp h)

theorem Trimmed.mono (hpq : ∀ c, p c → q c) {text : Text} (h : Trimmed q text) : Trimmed p text where
  head c hc hp := h.head c hc (hpq c hp)
  last c hc hp := h.last c hc (hpq c hp)

theorem dropWhile_of_head {text : Text} (h : ∀ c ∈ text.head?, ¬ p c) : text.dropWhile p = text := by
  cases text with
  | nil => rfl
  | cons c text => exact List.dropWhile_cons_of_neg (h c rfl)

theorem trim_nil : trim [] = [] := rfl

theorem trimBy_eq {before text after : Text} (hbefore : ∀ c ∈ before, p c) (htext : Trimmed p text)
    (hafter : ∀ c ∈ after, p c) : trimBy p (before ++ text ++ after) = text := by
  have hback : (text ++ after).rdropWhile p = text := by
    rw [List.rdropWhile, List.reverse_append, List.dropWhile_append_of_pos (by simpa using hafter),
      dropWhile_of_head (by simpa using htext.last), List.reverse_reverse]
  rw [trimBy, List.append_assoc, List.dropWhile_append_of_pos hbefore]
  cases text with
  | nil => rw [List.nil_append, List.dropWhile_eq_nil_iff.mpr hafter, List.rdropWhile_nil]
  | cons c text => rw [List.cons_append, List.dropWhile_cons_of_neg (htext.head c rfl), ← List.cons_append, hback]

theorem Trimmed.eq {text : Text} (h : Trimmed p text) : trimBy p text = text := by
  simpa using @trimBy_eq p [] text [] (by simp) h (by simp)

theorem trimmed_trimBy (p : Char → Bool) (text : Text) : Trimmed p (trimBy p text) where
  head c hc := by
    have hhead : (text.dropWhile p).head? = some c := by
      obtain ⟨rest, hrest⟩ := List.rdropWhile_prefix p (text.dropWhile p)
      rw [← hrest, List.head?_append, show (List.rdropWhile p (text.dropWhile p)).head? = some c from hc]
      rfl
    have := List.head?_dropWhile_not p text
    rw [hhead] at this
    simp [this]
  last c hc := by
    have := List.head?_dropWhile_not p (text.dropWhile p).reverse
    rw [trimBy, List.rdropWhile, List.getLast?_reverse] at hc
    rw [hc] at this
    simp [this]

theorem exists_trimBy (p : Char → Bool) (text : Text) : ∃ before after,
    (∀ c ∈ before, p c) ∧ (∀ c ∈ after, p c) ∧ text = before ++ trimBy p text ++ after := by
  refine ⟨text.takeWhile p, ((text.dropWhile p).reverse.takeWhile p).reverse, ?_, ?_, ?_⟩
  · exact fun c => List.mem_takeWhile_imp
  · exact fun c hc => List.mem_takeWhile_imp (List.mem_reverse.mp hc)
  · have hback : trimBy p text ++ ((text.dropWhile p).reverse.takeWhile p).reverse = text.dropWhile p := by
      rw [trimBy, List.rdropWhile, ← List.reverse_append, List.takeWhile_append_dropWhile,
        List.reverse_reverse]
    rw [List.append_assoc, hback, List.takeWhile_append_dropWhile]

theorem mem_trimBy {c : Char} {text : Text} (h : c ∈ text) (hc : ¬ p c) : c ∈ trimBy p text := by
  obtain ⟨before, after, hbefore, hafter, htext⟩ := exists_trimBy p text
  rw [htext, List.mem_append, List.mem_append] at h
  rcases h with (h | h) | h
  · exact absurd (hbefore c h) hc
  · exact h
  · exact absurd (hafter c h) hc

theorem trimBy_isInfix (p : Char → Bool) (text : Text) : trimBy p text <:+: text := by
  obtain ⟨before, after, -, -, htext⟩ := exists_trimBy p text
  exact ⟨before, after, htext.symm⟩

theorem trimBy_trimBy (hpq : ∀ c, p c → q c) (text : Text) :
    trimBy q (trimBy p text) = trimBy q text := by
  obtain ⟨before, after, hbefore, hafter, htext⟩ := exists_trimBy p text
  obtain ⟨before', after', hbefore', hafter', htrim⟩ := exists_trimBy q (trimBy p text)
  have hall : text = (before ++ before') ++ trimBy q (trimBy p text) ++ (after' ++ after) := by
    calc text = before ++ trimBy p text ++ after := htext
      _ = before ++ (before' ++ trimBy q (trimBy p text) ++ after') ++ after := by rw [← htrim]
      _ = _ := by simp only [List.append_assoc]
  conv_rhs => rw [hall]
  refine (trimBy_eq ?_ (trimmed_trimBy q _) ?_).symm
  · exact List.forall_mem_append.mpr ⟨fun c hc => hpq c (hbefore c hc), hbefore'⟩
  · exact List.forall_mem_append.mpr ⟨hafter', fun c hc => hpq c (hafter c hc)⟩

end

def splitOnce (sep : Char) : Text → Option (Text × Text)
  | [] => none
  | c :: text => if c = sep then some ([], text) else (splitOnce sep text).map (Prod.map (c :: ·) id)

theorem splitOnce_eq_some_iff {sep : Char} {text a b : Text} :
    splitOnce sep text = some (a, b) ↔ text = a ++ sep :: b ∧ sep ∉ a := by
  induction text generalizing a b with
  | nil => simp [splitOnce]
  | cons c text ih =>
    rw [splitOnce]
    split
    case isTrue hc =>
      subst hc
      cases a <;> simp +contextual [eq_comm]
    case isFalse hc =>
      cases a with
      | nil => simp [hc]
      | cons d a =>
        simp only [Option.map_eq_some_iff, Prod.exists, ih, Prod.map_apply, id_eq, Prod.mk.injEq,
          List.cons.injEq, List.cons_append, List.mem_cons, not_or]
        constructor
        · rintro ⟨a, b, ⟨rfl, hsep⟩, ⟨rfl, rfl⟩, rfl⟩
          exact ⟨⟨rfl, rfl⟩, fun h => hc h.symm, hsep⟩
        · rintro ⟨⟨rfl, rfl⟩, -, hsep⟩
          exact ⟨a, b, ⟨rfl, hsep⟩, ⟨rfl, rfl⟩, rfl⟩

theorem splitOnce_eq_none {sep : Char} {text : Text} (h : sep ∉ text) : splitOnce sep text = none := by
  rw [Option.eq_none_iff_forall_ne_some]
  rintro ⟨a, b⟩ hsome
  obtain ⟨rfl, -⟩ := splitOnce_eq_some_iff.mp hsome
  simp at h

def rsplitOnce (sep : Char) (text : Text) : Option (Text × Text) :=
  (splitOnce sep text.reverse).map fun parts => (parts.2.reverse, parts.1.reverse)

theorem rsplitOnce_append {sep : Char} {b : Text} (a : Text) (h : sep ∉ b) :
    rsplitOnce sep (a ++ sep :: b) = some (a, b) := by
  have hsplit : splitOnce sep (a ++ sep :: b).reverse = some (b.reverse, a.reverse) :=
    splitOnce_eq_some_iff.mpr ⟨by simp, by simpa using h⟩
  rw [rsplitOnce, hsplit, Option.map_some, List.reverse_reverse, List.reverse_reverse]

theorem rsplit_inj {α : Type*} {sep : α} {a b a' b' : List α} (hb : sep ∉ b) (hb' : sep ∉ b')
    (h : a ++ sep :: b = a' ++ sep :: b') : a = a' ∧ b = b' := by
  rcases List.append_eq_append_iff.mp h with ⟨between, rfl, hsplit⟩ | ⟨between, rfl, hsplit⟩
  · cases between with
    | nil => exact ⟨(List.append_nil a).symm, (List.cons.inj hsplit).2⟩
    | cons c between => exact absurd ((List.cons.inj hsplit).2 ▸ by simp) hb
  · cases between with
    | nil => exact ⟨List.append_nil a', (List.cons.inj hsplit).2.symm⟩
    | cons c between => exact absurd ((List.cons.inj hsplit).2 ▸ by simp) hb'

theorem exists_rsplit {sep : Char} {text : Text} (h : sep ∈ text) : ∃ a b, text = a ++ sep :: b ∧ sep ∉ b := by
  obtain ⟨behind, before, hsplit, hbehind⟩ := List.eq_append_cons_of_mem (List.mem_reverse.mpr h)
  refine ⟨before.reverse, behind.reverse, ?_, by simpa using hbehind⟩
  rw [← List.reverse_reverse text, hsplit]
  simp

theorem rsplitOnce_eq_none {sep : Char} {text : Text} (h : sep ∉ text) : rsplitOnce sep text = none := by
  rw [rsplitOnce, splitOnce_eq_none (by simpa using h)]
  rfl

def splitn (sep : Char) : Nat → Text → List Text
  | 0, _ => []
  | 1, text => [text]
  | n + 2, text =>
    match splitOnce sep text with
    | none => [text]
    | some (head, rest) => head :: splitn sep (n + 1) rest

theorem splitn_cons (sep : Char) (n : Nat) {a : Text} (ha : sep ∉ a) (b : Text) :
    splitn sep (n + 2) (a ++ sep :: b) = a :: splitn sep (n + 1) b := by
  rw [splitn, splitOnce_eq_some_iff.mpr ⟨rfl, ha⟩]

theorem not_mem_of_splitn {sep : Char} {n : Nat} {text : Text} {before after : List Text} {part : Text}
    (h : splitn sep n text = before ++ part :: after) (hafter : after ≠ []) : sep ∉ part := by
  induction n, text using splitn.induct sep generalizing before with
  | case1 text => simp [splitn] at h
  | case2 text =>
    rw [splitn] at h
    cases before <;> simp_all
  | case3 n text hnone =>
    rw [splitn, hnone] at h
    cases before <;> simp_all
  | case4 n text a b hsome ih =>
    rw [splitn, hsome] at h
    cases before with
    | nil =>
      obtain ⟨rfl, -⟩ := List.cons.inj h
      exact (splitOnce_eq_some_iff.mp hsome).2
    | cons first before => exact ih (List.cons.inj h).2

theorem infix_of_mem_splitn {sep : Char} {n : Nat} {text part : Text} (h : part ∈ splitn sep n text) :
    part <:+: text := by
  induction n, text using splitn.induct sep with
  | case1 text => cases h
  | case2 text =>
    rw [splitn, List.mem_singleton] at h
    exact h ▸ List.infix_rfl
  | case3 n text hnone =>
    rw [splitn, hnone, List.mem_singleton] at h
    exact h ▸ List.infix_rfl
  | case4 n text a b hsome ih =>
    rw [splitn, hsome] at h
    obtain ⟨rfl, -⟩ := splitOnce_eq_some_iff.mp hsome
    rcases List.mem_cons.mp h with rfl | htail
    · exact (List.prefix_append _ _).isInfix
    · exact (ih htail).trans ((List.suffix_cons sep b).trans (List.suffix_append a _)).isInfix

def eqIgnoreAsciiCase (text : Text) (other : String) : Bool :=
  text.map Char.toLower = other.toList.map Char.toLower

theorem eqIgnoreAsciiCase_iff {text : Text} {name : String} :
    eqIgnoreAsciiCase text name ↔ text.map Char.toLower = name.toList.map Char.toLower := by
  rw [eqIgnoreAsciiCase, decide_eq_true_iff]

theorem eqIgnoreAsciiCase_of_other {text : Text} {name other : String} (h : eqIgnoreAsciiCase text name)
    (hother : eqIgnoreAsciiCase name.toList other = false) : eqIgnoreAsciiCase text other = false := by
  rwa [eqIgnoreAsciiCase, eqIgnoreAsciiCase_iff.mp h]

def toDigit (radix : Nat) (c : Char) : Option Nat :=
  let n := c.toNat
  let value :=
    if 48 ≤ n ∧ n ≤ 57 then n - 48
    else if 97 ≤ n ∧ n ≤ 122 then n - 97 + 10
    else if 65 ≤ n ∧ n ≤ 90 then n - 65 + 10
    else radix
  if value < radix then some value else none

theorem toDigit_range {radix : Nat} {c : Char} (h : (toDigit radix c).isSome) :
    33 ≤ c.toNat ∧ c.toNat ≤ 122 := by
  simp only [toDigit] at h
  split_ifs at h <;> simp at h <;> omega

theorem toDigit_decimal_range {c : Char} (h : (toDigit 10 c).isSome) : 48 ≤ c.toNat ∧ c.toNat ≤ 57 := by
  simp only [toDigit] at h
  split_ifs at h <;> simp at h <;> omega

theorem not_isWhitespace_of_toDigit {radix : Nat} {c : Char} (h : (toDigit radix c).isSome) :
    ¬ isWhitespace c := by
  have hdigit := toDigit_range h
  intro hspace
  have := isWhitespace_range hspace
  omega

/-- The number that one or more digits denote. -/
def numeral (radix : Nat) (digits : Text) : Option Nat :=
  if digits = [] then none
  else digits.foldlM (fun n c => (toDigit radix c).map (n * radix + ·)) 0

theorem numeral_digits {radix n : Nat} {digits : Text} (h : numeral radix digits = some n) :
    digits ≠ [] ∧ ∀ c ∈ digits, (toDigit radix c).isSome := by
  rw [numeral] at h
  split at h
  case isTrue => cases h
  case isFalse hne =>
    refine ⟨hne, ?_⟩
    clear hne
    generalize 0 = start at h
    induction digits generalizing start with
    | nil => nofun
    | cons c digits ih =>
      rw [List.foldlM_cons] at h
      obtain ⟨m, hm, hrest⟩ := Option.bind_eq_some_iff.mp h
      obtain ⟨d, hd, -⟩ := Option.map_eq_some_iff.mp hm
      exact List.forall_mem_cons.mpr ⟨by rw [hd]; rfl, ih _ hrest⟩

theorem toDigit_digitChar {d : Nat} (h : d < 10) : toDigit 10 d.digitChar = some d := by
  have hall : ∀ d < 10, toDigit 10 d.digitChar = some d := by decide
  exact hall d h

theorem toDigit_digitChar_hex {d : Nat} (h : d < 16) : toDigit 16 d.digitChar = some d := by
  have hall : ∀ d < 16, toDigit 16 d.digitChar = some d := by decide
  exact hall d h

theorem numeral_toDigits_radix {radix : Nat} (hradix : 1 < radix)
    (hdigit : ∀ d < radix, toDigit radix d.digitChar = some d) (n : Nat) :
    numeral radix (Nat.toDigits radix n) = some n := by
  rw [numeral, if_neg Nat.toDigits_ne_nil]
  induction n using Nat.strongRecOn with
  | ind n ih =>
    by_cases hlt : n < radix
    · rw [Nat.toDigits_of_lt_base hlt, List.foldlM_cons, hdigit n hlt]
      simp
    · have hlast : n % radix < radix := Nat.mod_lt _ (by omega)
      have hsmaller : n / radix < n := Nat.div_lt_self (by omega) hradix
      rw [Nat.toDigits_of_base_le hradix (by omega), List.foldlM_append, ih (n / radix) hsmaller]
      simp only [Option.bind_eq_bind, Option.bind_some, List.foldlM_cons, List.foldlM_nil, hdigit _ hlast,
        Option.map_some, Option.pure_def, Option.some.injEq]
      exact Nat.div_add_mod' n radix

@[simp] theorem numeral_toDigits (n : Nat) : numeral 10 (Nat.toDigits 10 n) = some n :=
  numeral_toDigits_radix (by decide) (fun _ => toDigit_digitChar) n

@[simp] theorem numeral_toDigits_hex (n : Nat) : numeral 16 (Nat.toDigits 16 n) = some n :=
  numeral_toDigits_radix (by decide) (fun _ => toDigit_digitChar_hex) n

theorem toDigit_eq_zero_iff {radix : Nat} {c : Char} (hradix : 0 < radix) : toDigit radix c = some 0 ↔ c = '0' := by
  constructor
  · intro h
    have hcode : c.toNat = '0'.toNat := by
      change c.toNat = 48
      simp only [toDigit] at h
      split_ifs at h <;> simp at h <;> omega
    exact Char.toNat_inj.mp hcode
  · rintro rfl
    exact if_pos hradix

theorem numeral_eq_zero_iff {radix : Nat} {digits : Text} (hradix : 0 < radix) :
    numeral radix digits = some 0 ↔ digits ≠ [] ∧ ∀ c ∈ digits, c = '0' := by
  have hfold : ∀ start, digits.foldlM (fun n c => (toDigit radix c).map (n * radix + ·)) start = some 0 ↔
      start = 0 ∧ ∀ c ∈ digits, c = '0' := by
    induction digits with
    | nil => simp
    | cons c digits ih =>
      intro start
      simp only [List.foldlM_cons, Option.bind_eq_bind, Option.bind_eq_some_iff, Option.map_eq_some_iff, ih,
        List.forall_mem_cons, ← toDigit_eq_zero_iff hradix]
      constructor
      · rintro ⟨_, ⟨d, hd, rfl⟩, hzero, hall⟩
        obtain ⟨hstart, rfl⟩ := Nat.add_eq_zero_iff.mp hzero
        exact ⟨(Nat.mul_eq_zero.mp hstart).resolve_right hradix.ne', hd, hall⟩
      · rintro ⟨rfl, hc, hall⟩
        exact ⟨0, ⟨0, hc, by simp⟩, rfl, hall⟩
  rw [numeral]
  split
  · next hnil => simp [hnil]
  · next hne => simpa [hne] using hfold 0

def withoutPlus (text : Text) : Text := if text.head? = some '+' then text.tail else text

/-- `from_str_radix` of an unsigned type, which lets a plus sign stand in front. -/
def fromStrRadix (bits radix : Nat) (text : Text) : Option Nat :=
  (numeral radix (withoutPlus text)).filter (· < 2 ^ bits)

theorem withoutPlus_of_numeral {radix n : Nat} {digits : Text} (hplus : toDigit radix '+' = none)
    (h : numeral radix digits = some n) : withoutPlus digits = digits := by
  apply if_neg
  intro hhead
  have := (numeral_digits h).2 '+' (List.mem_of_mem_head? hhead)
  simp [hplus] at this

theorem fromStrRadix_of_numeral {bits radix n : Nat} {digits : Text} (hplus : toDigit radix '+' = none)
    (h : numeral radix digits = some n) (hn : n < 2 ^ bits) :
    fromStrRadix bits radix digits = some n := by
  rw [fromStrRadix, withoutPlus_of_numeral hplus h, h]
  simp [hn]

theorem fromStrRadix_eq_numeral {bits radix m n : Nat} {text : Text} (hplus : toDigit radix '+' = none)
    (h : fromStrRadix bits radix text = some n) (hdigits : numeral radix text = some m) : m = n := by
  rw [fromStrRadix, withoutPlus_of_numeral hplus hdigits, hdigits] at h
  exact Option.some.inj (Option.filter_eq_some_iff.mp h).1

theorem fromStrRadix_chars {bits radix n : Nat} {text : Text} (h : fromStrRadix bits radix text = some n) :
    text ≠ [] ∧ ∀ c ∈ text, c = '+' ∨ (toDigit radix c).isSome := by
  obtain ⟨hne, hall⟩ := numeral_digits (Option.filter_eq_some_iff.mp h).1
  rw [withoutPlus] at hne hall
  split at hall
  case isTrue hhead =>
    obtain ⟨rest, rfl⟩ := List.head?_eq_some_iff.mp hhead
    exact ⟨List.cons_ne_nil _ _, List.forall_mem_cons.mpr ⟨.inl rfl, fun c hc => .inr (hall c hc)⟩⟩
  case isFalse hhead =>
    rw [if_neg hhead] at hne
    exact ⟨hne, fun c hc => .inr (hall c hc)⟩

end Hysteria.Lib
