import Hysteria.Lib.Percent

/-! URLs of a scheme that is not one of the special ones of the URL standard: how they are put together from
their components, and what is known of the library that takes them apart. -/
namespace Hysteria.Lib

def isPrintable (c : Char) : Bool := 33 ≤ c.toNat && c.toNat ≤ 126

def isVisible (c : Char) : Bool := 33 ≤ c.toNat && !isWhitespace c

theorem isVisible_of_isPrintable {c : Char} (h : isPrintable c) : isVisible c := by
  simp only [isPrintable, isVisible, Bool.and_eq_true, decide_eq_true_iff, Bool.not_eq_true',
    Bool.eq_false_iff] at h ⊢
  refine ⟨h.1, fun hspace => ?_⟩
  have := isWhitespace_range hspace
  omega

theorem trim_of_isVisible {text : Text} (h : ∀ c ∈ text, isVisible c) : trim text = text := by
  refine (Trimmed.of_forall fun c hc => ?_).eq
  have := h c hc
  simp only [isVisible, Bool.and_eq_true, Bool.not_eq_true', Bool.eq_false_iff] at this
  exact this.2

namespace Url

def endsAuthority (c : Char) : Bool := c.toNat = 47 || c.toNat = 63 || c.toNat = 35

def isForbiddenHostChar (c : Char) : Bool :=
  let n := c.toNat
  n = 0 || n = 9 || n = 10 || n = 13 || n = 32 || n = 35 || n = 47 || n = 58 || n = 60 || n = 62 ||
    n = 63 || n = 64 || n = 91 || n = 92 || n = 93 || n = 94 || n = 124

theorem hostChars_of_all {text : Text} (h : text.all (fun c => isVisible c && !isForbiddenHostChar c) = true) :
    ∀ c ∈ text, isVisible c ∧ ¬ isForbiddenHostChar c := by
  intro c hc
  simpa using List.all_eq_true.mp h c hc

theorem hostChar_of_ipv4 {c : Char} (h : (toDigit 10 c).isSome ∨ c = '.') : isVisible c ∧ ¬ isForbiddenHostChar c := by
  rcases h with h | rfl
  · have hrange := toDigit_decimal_range h
    refine ⟨isVisible_of_isPrintable ?_, ?_⟩
    · simp only [isPrintable, Bool.and_eq_true, decide_eq_true_iff]
      omega
    · simp only [isForbiddenHostChar, Bool.or_eq_true, decide_eq_true_iff]
      omega
  · decide

end Url

structure HostName where
  text : Text
  ne_nil : text ≠ []
  chars : ∀ c ∈ text, isVisible c ∧ ¬ Url.isForbiddenHostChar c

def isIpv6Char (c : Char) : Bool :=
  let n := c.toNat
  (48 ≤ n && n ≤ 58) || (65 ≤ n && n ≤ 70) || (97 ≤ n && n ≤ 102) || n = 46

structure Ipv6Literal where
  text : Text
  chars : ∀ c ∈ text, isIpv6Char c
  colon : ':' ∈ text

inductive Host
  | name (name : HostName)
  | ipv6 (literal : Ipv6Literal)

namespace Host

def text : Host → Text
  | .name host => host.text
  | .ipv6 literal => '[' :: (literal.text ++ [']'])

def isPlain : Host → Bool
  | .name host => host.text.all isPrintable
  | .ipv6 _ => false

theorem mem_text_ipv6 {literal : Ipv6Literal} {c : Char} (h : c ∈ (Host.ipv6 literal).text) :
    isIpv6Char c ∨ c = '[' ∨ c = ']' := by
  rcases List.mem_cons.mp h with rfl | h
  · exact .inr (.inl rfl)
  · rcases List.mem_append.mp h with h | h
    · exact .inl (literal.chars c h)
    · exact .inr (.inr (List.mem_singleton.mp h))

theorem mem_text {host : Host} {c : Char} (h : c ∈ host.text) :
    isVisible c ∧ c.toNat ≠ 64 ∧ ¬ Url.endsAuthority c := by
  cases host with
  | name host =>
    obtain ⟨hvisible, hforbidden⟩ := host.chars c h
    simp only [Url.isForbiddenHostChar, Url.endsAuthority, Bool.or_eq_true, decide_eq_true_iff] at hforbidden ⊢
    exact ⟨hvisible, by omega, by omega⟩
  | ipv6 literal =>
    rcases mem_text_ipv6 h with hc | rfl | rfl
    · simp only [isIpv6Char, Bool.and_eq_true, Bool.or_eq_true, decide_eq_true_iff] at hc
      have hprint : isPrintable c := by
        simp only [isPrintable, Bool.and_eq_true, decide_eq_true_iff]
        omega
      refine ⟨isVisible_of_isPrintable hprint, by omega, ?_⟩
      simp only [Url.endsAuthority, Bool.or_eq_true, decide_eq_true_iff]
      omega
    · decide
    · decide

end Host

def isFormChar (c : Char) : Bool :=
  let n := c.toNat
  (48 ≤ n && n ≤ 57) || (65 ≤ n && n ≤ 90) || (97 ≤ n && n ≤ 122) || n = 42 || n = 45 || n = 46 ||
    n = 95 || n = 43 || n = 37

/-- What a URL is put together from; its path is the root. -/
structure UrlParts where
  userinfo : Option Text
  host : Host
  port : UInt16
  pairs : List (Text × Text)
  userinfo_chars : ∀ text ∈ userinfo, ∀ c ∈ text, isPrintable c ∧ c ≠ '@' ∧ ¬ Url.endsAuthority c

/-- What the accessors of a parsed URL return. -/
structure Url where
  scheme : Text
  username : Text
  password : Option Text
  hostStr : Option Text
  port : Option UInt16
  queryPairs : List (Text × Text)
deriving DecidableEq, Repr

namespace UrlParts

def userinfoText : Option Text → Text
  | none => []
  | some userinfo => userinfo ++ ['@']

def authority (parts : UrlParts) : Text :=
  userinfoText parts.userinfo ++ (parts.host.text ++ ':' :: Nat.toDigits 10 parts.port.toNat)

end UrlParts

/-- The `url` and `form_urlencoded` crates, as far as they are called. -/
structure UrlCrate where
  parse : Text → Option Url
  formSerialize : List (Text × Text) → Text

def UrlCrate.assemble (crate : UrlCrate) (scheme : Text) (parts : UrlParts) : Text :=
  let query := crate.formSerialize parts.pairs
  scheme ++ ':' :: '/' :: '/' :: (parts.authority ++ '/' :: if query = [] then [] else '?' :: query)

namespace Url

/-- A component of the userinfo may be percent-encoded further. -/
def ReadsComponent (written read : Text) : Prop :=
  ∀ bytes, Unescapes (utf8 written) bytes → Unescapes (utf8 read) bytes

/-- The userinfo is split at its first colon, which is dropped where nothing stands behind it. -/
def ReadsUserinfo (url : Url) : Option Text → Prop
  | none => url.username = [] ∧ url.password = none
  | some userinfo =>
    match splitOnce ':' userinfo with
    | none => ReadsComponent userinfo url.username ∧ url.password = none
    | some (username, password) =>
      ReadsComponent username url.username ∧
        if password = [] then url.password = none
        else ∃ read, url.password = some read ∧ ReadsComponent password read

/-- A name in ASCII is taken as it is and any other one encoded. An IPv6 address keeps its brackets, and may
be written in another way. -/
def ReadsHost (url : Url) : Host → Prop
  | .name name => ∃ read, url.hostStr = some read ∧ (∀ c ∈ read, c.toNat < 127) ∧
      (name.text.all isPrintable → read = name.text)
  | .ipv6 _ => ∃ address, url.hostStr = some ('[' :: (address ++ [']'])) ∧ ':' ∈ address

theorem ReadsHost.exists_hostStr {url : Url} {host : Host} (h : url.ReadsHost host) :
    ∃ read, url.hostStr = some read := by
  cases host with
  | name =>
    obtain ⟨read, hread, -⟩ := h
    exact ⟨read, hread⟩
  | ipv6 =>
    obtain ⟨address, hread, -⟩ := h
    exact ⟨_, hread⟩

structure Reads (url : Url) (scheme : Text) (parts : UrlParts) : Prop where
  scheme_eq : url.scheme = scheme
  userinfo : url.ReadsUserinfo parts.userinfo
  host : url.ReadsHost parts.host
  port_eq : url.port = some parts.port
  queryPairs_eq : url.queryPairs = parts.pairs

end Url

/-- What is known of the crates where they read a URL of the scheme. -/
structure UrlCrate.Lawful (crate : UrlCrate) (scheme : Text) : Prop where
  form_chars : ∀ pairs, ∀ c ∈ crate.formSerialize pairs, isFormChar c ∨ c = '=' ∨ c = '&'
  parses : ∀ parts, parts.host.isPlain → (crate.parse (crate.assemble scheme parts)).isSome
  reads : ∀ parts url, crate.parse (crate.assemble scheme parts) = some url → url.Reads scheme parts

namespace UrlParts

theorem toDigits_range {n : Nat} {c : Char} (h : c ∈ Nat.toDigits 10 n) : 48 ≤ c.toNat ∧ c.toNat ≤ 57 :=
  toDigit_decimal_range ((numeral_digits (numeral_toDigits n)).2 c h)

theorem mem_hostPort (host : Host) (port : UInt16) :
    ∀ c ∈ host.text ++ ':' :: Nat.toDigits 10 port.toNat, isVisible c ∧ c.toNat ≠ 64 ∧ ¬ Url.endsAuthority c := by
  refine List.forall_mem_append.mpr ⟨fun c hc => Host.mem_text hc, List.forall_mem_cons.mpr ⟨by decide, ?_⟩⟩
  intro c hc
  have := toDigits_range hc
  refine ⟨isVisible_of_isPrintable ?_, by omega, ?_⟩
  · simp only [isPrintable, Bool.and_eq_true, decide_eq_true_iff]
    omega
  · simp only [Url.endsAuthority, Bool.or_eq_true, decide_eq_true_iff]
    omega

theorem mem_authority (parts : UrlParts) : ∀ c ∈ parts.authority, isVisible c ∧ ¬ Url.endsAuthority c := by
  refine List.forall_mem_append.mpr ⟨?_, fun c hc => ?_⟩
  · cases huserinfo : parts.userinfo with
    | none => exact List.forall_mem_nil _
    | some userinfo =>
      refine List.forall_mem_append.mpr ⟨fun c hc => ?_, List.forall_mem_singleton.mpr (by decide)⟩
      obtain ⟨hprint, -, hends⟩ := parts.userinfo_chars userinfo huserinfo c hc
      exact ⟨isVisible_of_isPrintable hprint, hends⟩
  · obtain ⟨hvisible, -, hends⟩ := mem_hostPort parts.host parts.port c hc
    exact ⟨hvisible, hends⟩

end UrlParts

theorem isPrintable_of_isFormChar {c : Char} (h : isFormChar c ∨ c = '=' ∨ c = '&') : isPrintable c := by
  rcases h with h | rfl | rfl
  · simp only [isFormChar, isPrintable, Bool.and_eq_true, Bool.or_eq_true, decide_eq_true_iff] at h ⊢
    omega
  · decide
  · decide

theorem UrlCrate.isVisible_assemble {crate : UrlCrate} {scheme : Text} {parts : UrlParts}
    (hscheme : ∀ c ∈ scheme, isVisible c)
    (hform : ∀ c ∈ crate.formSerialize parts.pairs, isFormChar c ∨ c = '=' ∨ c = '&') :
    ∀ c ∈ crate.assemble scheme parts, isVisible c := by
  have hquery : ∀ c ∈ (if crate.formSerialize parts.pairs = [] then [] else '?' :: crate.formSerialize parts.pairs),
      isVisible c := by
    split
    · exact List.forall_mem_nil _
    · exact List.forall_mem_cons.mpr
        ⟨by decide, fun c hc => isVisible_of_isPrintable (isPrintable_of_isFormChar (hform c hc))⟩
  simp only [UrlCrate.assemble, List.forall_mem_append, List.forall_mem_cons]
  exact ⟨hscheme, by decide, by decide, by decide, fun c hc => (parts.mem_authority c hc).1, by decide, hquery⟩

end Hysteria.Lib
