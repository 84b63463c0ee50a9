import Hysteria.Lib.Url

/-! URLs read in the way of the URL standard: components are found by their delimiters and what stands in
them is percent-encoded where it is not allowed. An IPv6 literal is taken as it is written. -/
namespace Hysteria.Lib.UrlStandard
open Url

def formKeeps (b : UInt8) : Bool :=
  (48 ≤ b && b ≤ 57) || (65 ≤ b && b ≤ 90) || (97 ≤ b && b ≤ 122) || b = 42 || b = 45 || b = 46 || b = 95

def formEncodeByte (b : UInt8) : List UInt8 := if b = 32 then [43] else percentEncodeByte formKeeps b

def formEncode (text : Text) : Text := asciiText ((utf8 text).flatMap formEncodeByte)

def formDecode (raw : Text) : Text :=
  decodeLossy (percentDecodeLenient ((utf8 raw).map fun b => if b = 43 then 32 else b))

def formPair (pair : Text × Text) : Text := formEncode pair.1 ++ '=' :: formEncode pair.2

def formSerialize (pairs : List (Text × Text)) : Text := ['&'].intercalate (pairs.map formPair)

def formParsePart (part : Text) : Text × Text :=
  match splitOnce '=' part with
  | some (name, value) => (formDecode name, formDecode value)
  | none => (formDecode part, [])

def formParse (query : Text) : List (Text × Text) :=
  ((query.splitOn '&').filter (· ≠ [])).map formParsePart

theorem isFormChar_of_mem_formEncode {text : Text} : ∀ c ∈ formEncode text, isFormChar c :=
  forall_mem_asciiText (forall_byte (by decide +kernel)) _

theorem notMem_formEncode {c : Char} (h : isFormChar c = false) (text : Text) : c ∉ formEncode text := by
  intro hc
  rw [isFormChar_of_mem_formEncode c hc] at h
  cases h

@[simp] theorem formDecode_formEncode (text : Text) : formDecode (formEncode text) = text := by
  have hascii : ∀ b : UInt8, (formEncodeByte b).all fun e => e.toNat < 128 := forall_byte (by decide +kernel)
  -- with plus signs read as spaces, the encoding is one that keeps the space
  have hplus : ∀ b : UInt8, (formEncodeByte b).map (fun e => if e = 43 then 32 else e) =
      percentEncodeByte (fun e => formKeeps e || e = 32) b := forall_byte (by decide +kernel)
  have hutf8 : utf8 (formEncode text) = (utf8 text).flatMap formEncodeByte := by
    apply utf8_asciiText
    intro e he
    obtain ⟨b, -, hb⟩ := List.mem_flatMap.mp he
    exact of_decide_eq_true (List.all_eq_true.mp (hascii b) e hb)
  have hmap : (utf8 (formEncode text)).map (fun e => if e = 43 then 32 else e) =
      percentEncode (fun e => formKeeps e || e = 32) (utf8 text) := by
    rw [hutf8, List.map_flatMap, percentEncode]
    simp only [hplus]
  have hunescapes : Unescapes (percentEncode (fun e => formKeeps e || e = 32) (utf8 text)) (utf8 text) :=
    unescapes_percentEncode (by decide) _
  rw [formDecode, hmap, hunescapes.percentDecodeLenient]
  exact decodeLossy_encode text

@[simp] theorem formParsePart_formPair (pair : Text × Text) : formParsePart (formPair pair) = pair := by
  have hsplit : splitOnce '=' (formPair pair) = some (formEncode pair.1, formEncode pair.2) :=
    splitOnce_eq_some_iff.mpr ⟨rfl, notMem_formEncode (by decide) _⟩
  simp only [formParsePart, hsplit, formDecode_formEncode]

theorem mem_formPair {pair : Text × Text} {c : Char} (h : c ∈ formPair pair) : isFormChar c ∨ c = '=' := by
  rcases List.mem_append.mp h with h | h
  · exact .inl (isFormChar_of_mem_formEncode c h)
  · rcases List.mem_cons.mp h with rfl | h
    · exact .inr rfl
    · exact .inl (isFormChar_of_mem_formEncode c h)

theorem notMem_formPair {c : Char} (h : isFormChar c = false) (heq : c ≠ '=') (pair : Text × Text) :
    c ∉ formPair pair := by
  intro hc
  rcases mem_formPair hc with hform | hform
  · rw [h] at hform
    cases hform
  · exact heq hform

theorem formParse_formSerialize (pairs : List (Text × Text)) : formParse (formSerialize pairs) = pairs := by
  by_cases hnil : pairs = []
  · subst hnil
    rfl
  · have hsep : ∀ part ∈ pairs.map formPair, '&' ∉ part := by
      rintro part hpart
      obtain ⟨pair, -, rfl⟩ := List.mem_map.mp hpart
      exact notMem_formPair (by decide) (by decide) pair
    have hfilter : (pairs.map formPair).filter (· ≠ []) = pairs.map formPair := by
      apply List.filter_eq_self.mpr
      intro part hpart
      obtain ⟨pair, -, rfl⟩ := List.mem_map.mp hpart
      simp [formPair]
    rw [formParse, formSerialize, List.splitOn_intercalate '&' hsep (by simpa using hnil), hfilter,
      List.map_map]
    exact List.map_id'' formParsePart_formPair pairs

theorem mem_formSerialize {pairs : List (Text × Text)} {c : Char} (h : c ∈ formSerialize pairs) :
    isFormChar c ∨ c = '=' ∨ c = '&' := by
  induction pairs with
  | nil => cases h
  | cons pair pairs ih =>
    cases pairs with
    | nil =>
      rw [formSerialize, List.map_singleton, List.intercalate_singleton] at h
      exact (mem_formPair h).imp_right .inl
    | cons next pairs =>
      rw [formSerialize, List.map_cons, List.map_cons, List.intercalate_cons_cons, List.append_assoc,
        List.mem_append, List.mem_append, List.mem_singleton] at h
      rcases h with h | rfl | h
      · exact (mem_formPair h).imp_right .inl
      · exact .inr (.inr rfl)
      · exact ih h

structure Authority where
  username : Text := []
  password : Option Text := none
  host : Option Text := none
  port : Option UInt16 := none

def isC0ControlOrSpace (c : Char) : Bool := c.toNat ≤ 32

def isTabOrNewline (c : Char) : Bool := c.toNat = 9 || c.toNat = 10 || c.toNat = 13

/-- The input without the characters that are passed over wherever they stand. -/
def cleaned (input : Text) : Text := (trimBy isC0ControlOrSpace input).filter fun c => !isTabOrNewline c

def isAlpha (c : Char) : Bool := (65 ≤ c.toNat && c.toNat ≤ 90) || (97 ≤ c.toNat && c.toNat ≤ 122)

def isSchemeChar (c : Char) : Bool :=
  isAlpha c || (48 ≤ c.toNat && c.toNat ≤ 57) || c.toNat = 43 || c.toNat = 45 || c.toNat = 46

def isScheme (text : Text) : Bool := text.head?.any isAlpha && text.all isSchemeChar

def authorityOf : Text → Option Text
  | '/' :: '/' :: rest => some (rest.takeWhile fun c => !endsAuthority c)
  | _ => none

/-- A host ends at the first colon outside of brackets. -/
def spanHost (inside : Bool) : Text → Text × Text
  | [] => ([], [])
  | c :: text =>
    if c = ':' ∧ inside = false then ([], c :: text)
    else (spanHost (if c = '[' then true else if c = ']' then false else inside) text).map (c :: ·) id

/-- The bytes that stay as they are in a query, a host and a userinfo: the rest of ASCII, the
controls and every byte from 127 on are percent-encoded. -/
def keepsOutside (encoded : List Char) (b : UInt8) : Bool :=
  32 ≤ b.toNat && b.toNat < 127 && !encoded.any fun c => c.toNat = b.toNat

def queryKeeps : UInt8 → Bool := keepsOutside [' ', '"', '#', '<', '>']

def hostKeeps : UInt8 → Bool := keepsOutside []

def userinfoKeeps : UInt8 → Bool :=
  keepsOutside [' ', '"', '<', '>', '\x60', '#', '?', '\x7b', '\x7d', '/', ':', ';', '=', '@', '[', '\\', ']', '^', '|']

def queryOf (rest : Text) : Option Text :=
  (splitOnce '?' (rest.takeWhile fun c => c.toNat ≠ 35)).map fun parts => percentEncodeText queryKeeps parts.2

def credentials : Option Text → Text × Option Text
  | none => ([], none)
  | some userinfo =>
    match splitOnce ':' userinfo with
    | none => (percentEncodeText userinfoKeeps userinfo, none)
    | some (username, password) =>
      (percentEncodeText userinfoKeeps username,
        if password = [] then none else some (percentEncodeText userinfoKeeps password))

def splitUserinfo (authority : Text) : Option Text × Text :=
  match rsplitOnce '@' authority with
  | some (userinfo, host) => (some userinfo, host)
  | none => (none, authority)

/-- The host, with its brackets where it is an IPv6 address. An empty one is no host. -/
def parseHost (text : Text) : Option (Option Text) :=
  if text = [] then some none
  else if text.head? = some '[' then
    if text.getLast? = some ']' then some (some text) else none
  else if text.any isForbiddenHostChar then none
  else some (some (percentEncodeText hostKeeps text))

def parsePort : Text → Option (Option UInt16)
  | [] => some none
  | _ :: digits =>
    if digits = [] then some none
    else ((numeral 10 digits).filter (· < 65536)).map fun port => some (UInt16.ofNat port)

def parseAuthority : Option Text → Option Authority
  | none => some {}
  | some authority =>
    let (userinfo, hostport) := splitUserinfo authority
    let (username, password) := credentials userinfo
    let (host, port) := spanHost false hostport
    match parseHost host, parsePort port with
    | some host, some port =>
      if host.isNone && (userinfo.isSome || port.isSome) then none
      else some { username, password, host, port }
    | _, _ => none

def parse (input : Text) : Option Url :=
  match splitOnce ':' (cleaned input) with
  | none => none
  | some (scheme, rest) =>
    if isScheme scheme then
      (parseAuthority (authorityOf rest)).map fun authority =>
        { scheme := scheme.map Char.toLower
          username := authority.username
          password := authority.password
          hostStr := authority.host
          port := authority.port
          queryPairs := formParse ((queryOf rest).getD []) }
    else none

theorem cleaned_of_isVisible {input : Text} (h : ∀ c ∈ input, isVisible c) : cleaned input = input := by
  have hrange : ∀ c ∈ input, 33 ≤ c.toNat := by
    intro c hc
    have := h c hc
    simp only [isVisible, Bool.and_eq_true, decide_eq_true_iff] at this
    exact this.1
  have htrim : trimBy isC0ControlOrSpace input = input := by
    refine (Trimmed.of_forall fun c hc => ?_).eq
    have := hrange c hc
    simp only [isC0ControlOrSpace, decide_eq_true_iff]
    omega
  rw [cleaned, htrim, List.filter_eq_self]
  intro c hc
  have := hrange c hc
  simp only [isTabOrNewline, Bool.not_eq_true', Bool.or_eq_false_iff, decide_eq_false_iff_not]
  omega

theorem takeWhile_append {p : Char → Bool} {a b : Text} {c : Char} (ha : ∀ d ∈ a, p d) (hc : p c = false) :
    (a ++ c :: b).takeWhile p = a := by
  rw [List.takeWhile_append_of_pos ha, List.takeWhile_cons, hc]
  simp

theorem notMem_of_isScheme {scheme : Text} (h : isScheme scheme) : ':' ∉ scheme := by
  intro hmem
  rw [isScheme, Bool.and_eq_true] at h
  have : isSchemeChar ':' = true := List.all_eq_true.mp h.2 ':' hmem
  revert this
  decide

theorem authorityOf_append {authority : Text} (rest : Text) (h : ∀ c ∈ authority, ¬ endsAuthority c) :
    authorityOf ('/' :: '/' :: (authority ++ '/' :: rest)) = some authority := by
  rw [authorityOf, takeWhile_append (by simpa using h) (by decide)]

theorem queryOf_append {before query : Text} (hbefore : ∀ c ∈ before, c ≠ '?' ∧ c ≠ '#')
    (hquery : ∀ c ∈ query, c.toNat < 128 ∧ queryKeeps (UInt8.ofNat c.toNat)) :
    (queryOf (before ++ if query = [] then [] else '?' :: query)).getD [] = query := by
  have hhash {c : Char} (h : c ≠ '#') : decide (c.toNat ≠ 35) = true := by
    rw [decide_eq_true_iff]
    exact fun hc => h (Char.toNat_inj.mp hc)
  have hmark : '?' ∉ before := fun h => (hbefore '?' h).1 rfl
  split
  case isTrue hnil =>
    have htake : before.takeWhile (fun c => c.toNat ≠ 35) = before :=
      List.takeWhile_eq_self_iff.mpr fun c hc => hhash (hbefore c hc).2
    rw [List.append_nil, queryOf, htake, splitOnce_eq_none hmark, hnil]
    rfl
  case isFalse =>
    have hall : ∀ c ∈ before ++ '?' :: query, decide (c.toNat ≠ 35) = true := by
      refine List.forall_mem_append.mpr ⟨fun c hc => hhash (hbefore c hc).2, List.forall_mem_cons.mpr ⟨by decide, ?_⟩⟩
      intro c hc
      apply hhash
      rintro rfl
      have := (hquery '#' hc).2
      revert this
      decide
    rw [queryOf, List.takeWhile_eq_self_iff.mpr hall, splitOnce_eq_some_iff.mpr ⟨rfl, hmark⟩, Option.map_some,
      percentEncodeText_of_keep hquery, Option.getD_some]

theorem splitUserinfo_append {host : Text} (h : '@' ∉ host) (userinfo : Option Text) :
    splitUserinfo (UrlParts.userinfoText userinfo ++ host) = (userinfo, host) := by
  cases userinfo with
  | none => simp only [splitUserinfo, UrlParts.userinfoText, List.nil_append, rsplitOnce_eq_none h]
  | some userinfo =>
    have hsplit : rsplitOnce '@' (userinfo ++ ['@'] ++ host) = some (userinfo, host) := by
      rw [List.append_assoc]
      exact rsplitOnce_append userinfo h
    simp only [splitUserinfo, UrlParts.userinfoText, hsplit]

theorem parsePort_digits (port : UInt16) : parsePort (':' :: Nat.toDigits 10 port.toNat) = some (some port) := by
  have hlt : port.toNat < 65536 := port.toNat_lt
  rw [parsePort, if_neg Nat.toDigits_ne_nil, numeral_toDigits]
  simp [hlt]

def hostOf : Host → Text
  | .name host => percentEncodeText hostKeeps host.text
  | .ipv6 literal => '[' :: (literal.text ++ [']'])

theorem hostOf_of_isPlain {host : HostName} (hplain : host.text.all isPrintable) : hostOf (.name host) = host.text := by
  apply percentEncodeText_of_keep
  intro c hc
  have hprint := List.all_eq_true.mp hplain c hc
  simp only [isPrintable, Bool.and_eq_true, decide_eq_true_iff] at hprint
  have hlt : c.toNat < 128 := by omega
  refine ⟨hlt, ?_⟩
  simp only [hostKeeps, keepsOutside, List.any_nil, Bool.not_false, Bool.and_true, Bool.and_eq_true,
    decide_eq_true_iff, toNat_ofNat_toNat hlt]
  exact ⟨by omega, by omega⟩

theorem spanHost_outside {a : Text} (h : ∀ c ∈ a, c ≠ ':' ∧ c ≠ '[') (rest : Text) :
    spanHost false (a ++ ':' :: rest) = (a, ':' :: rest) := by
  induction a with
  | nil => rfl
  | cons c a ih =>
    obtain ⟨⟨hcolon, hopen⟩, ha⟩ := List.forall_mem_cons.mp h
    rw [List.cons_append, spanHost, if_neg (fun hc => hcolon hc.1), if_neg hopen, ite_self, ih ha]
    rfl

theorem spanHost_inside {a : Text} (h : ∀ c ∈ a, c ≠ ']') (rest : Text) :
    spanHost true (a ++ ']' :: rest) = (spanHost false rest).map ((a ++ [']']) ++ ·) id := by
  induction a with
  | nil => rfl
  | cons c a ih =>
    obtain ⟨hclose, ha⟩ := List.forall_mem_cons.mp h
    rw [List.cons_append, spanHost, if_neg (by simp), if_neg hclose, ite_self, ih ha]
    rfl

theorem spanHost_text (host : Host) (rest : Text) :
    spanHost false (host.text ++ ':' :: rest) = (host.text, ':' :: rest) := by
  cases host with
  | name host =>
    apply spanHost_outside
    intro c hc
    have hforbidden := (host.chars c hc).2
    constructor
    · rintro rfl
      exact hforbidden (by decide)
    · rintro rfl
      exact hforbidden (by decide)
  | ipv6 literal =>
    have hclose : ∀ c ∈ literal.text, c ≠ ']' := by
      rintro c hc rfl
      have := literal.chars ']' hc
      revert this
      decide
    have hinside := spanHost_inside hclose (':' :: rest)
    rw [Host.text, List.cons_append, List.append_assoc, List.singleton_append, spanHost, if_neg (by decide),
      if_pos rfl, hinside]
    simp [spanHost]

theorem parseHost_text (host : Host) : parseHost host.text = some (some (hostOf host)) := by
  cases host with
  | name host =>
    have hhead : host.text.head? ≠ some '[' := by
      intro hopen
      exact (host.chars '[' (List.mem_of_mem_head? hopen)).2 (by decide)
    have hallowed : host.text.any isForbiddenHostChar = false :=
      List.any_eq_false.mpr fun c hc => (host.chars c hc).2
    rw [Host.text, parseHost, if_neg host.ne_nil, if_neg hhead, hallowed]
    rfl
  | ipv6 literal =>
    have hlast : (Host.ipv6 literal).text.getLast? = some ']' := by
      rw [Host.text, ← List.cons_append, List.getLast?_append]
      rfl
    have hne : (Host.ipv6 literal).text ≠ [] := List.cons_ne_nil _ _
    have hhead : (Host.ipv6 literal).text.head? = some '[' := rfl
    rw [parseHost, if_neg hne, if_pos hhead, if_pos hlast]
    rfl

theorem parseAuthority_eq (parts : UrlParts) :
    parseAuthority (some parts.authority) =
      some { username := (credentials parts.userinfo).1
             password := (credentials parts.userinfo).2
             host := some (hostOf parts.host)
             port := some parts.port } := by
  have hat : '@' ∉ parts.host.text ++ ':' :: Nat.toDigits 10 parts.port.toNat :=
    fun h => (UrlParts.mem_hostPort parts.host parts.port '@' h).2.1 rfl
  simp only [parseAuthority, UrlParts.authority, splitUserinfo_append hat, spanHost_text, parseHost_text,
    parsePort_digits]
  rfl

theorem isVisible_of_isScheme {scheme : Text} (h : isScheme scheme) : ∀ c ∈ scheme, isVisible c := by
  intro c hc
  rw [isScheme, Bool.and_eq_true] at h
  have hchar := List.all_eq_true.mp h.2 c hc
  apply isVisible_of_isPrintable
  simp only [isSchemeChar, isAlpha, isPrintable, Bool.and_eq_true, Bool.or_eq_true, decide_eq_true_iff] at hchar ⊢
  omega

theorem ne_of_not_endsAuthority {c : Char} (h : ¬ endsAuthority c) : c ≠ '?' ∧ c ≠ '#' := by
  constructor
  · rintro rfl
    exact h (by decide)
  · rintro rfl
    exact h (by decide)

theorem queryKeeps_of_isFormChar {c : Char} (h : isFormChar c ∨ c = '=' ∨ c = '&') :
    c.toNat < 128 ∧ queryKeeps (UInt8.ofNat c.toNat) := by
  have hsafe : ∀ b : UInt8, isFormChar (Char.ofNat b.toNat) → queryKeeps b := forall_byte (by decide +kernel)
  rcases h with hform | rfl | rfl
  · have hlt : c.toNat < 128 := by
      simp only [isFormChar, Bool.and_eq_true, Bool.or_eq_true, decide_eq_true_iff] at hform
      omega
    have hbyte := hsafe (UInt8.ofNat c.toNat)
    rw [ofNat_toNat_ofNat_toNat hlt] at hbyte
    exact ⟨hlt, hbyte hform⟩
  · decide
  · decide

theorem readsComponent (written : Text) : Url.ReadsComponent written (percentEncodeText userinfoKeeps written) := by
  have hascii : ∀ b, userinfoKeeps b → b.toNat < 128 := forall_byte (by decide +kernel)
  have hdigits : ∀ b, (nibble b).isSome → userinfoKeeps b := forall_byte (by decide +kernel)
  intro bytes h
  rw [utf8_percentEncodeText hascii]
  exact h.reencoded (by decide) hdigits

theorem readsUserinfo {url : Url} {userinfo : Option Text} (husername : url.username = (credentials userinfo).1)
    (hpassword : url.password = (credentials userinfo).2) : url.ReadsUserinfo userinfo := by
  cases userinfo with
  | none => exact ⟨husername, hpassword⟩
  | some userinfo =>
    simp only [credentials] at husername hpassword
    simp only [Url.ReadsUserinfo]
    cases hsplit : splitOnce ':' userinfo with
    | none =>
      simp only [hsplit] at husername hpassword ⊢
      rw [husername]
      exact ⟨readsComponent userinfo, hpassword⟩
    | some parts =>
      simp only [hsplit] at husername hpassword ⊢
      rw [husername]
      refine ⟨readsComponent parts.1, ?_⟩
      split
      case isTrue hnil => rwa [if_pos hnil] at hpassword
      case isFalse hne =>
        rw [if_neg hne] at hpassword
        exact ⟨_, hpassword, readsComponent parts.2⟩

theorem readsHost {url : Url} {host : Host} (h : url.hostStr = some (hostOf host)) : url.ReadsHost host := by
  cases host with
  | name name =>
    have hencoded : ∀ c ∈ hostOf (.name name), decide (c.toNat < 127) :=
      forall_mem_asciiText (forall_byte (by decide +kernel)) _
    exact ⟨_, h, fun c hc => of_decide_eq_true (hencoded c hc), hostOf_of_isPlain⟩
  | ipv6 literal => exact ⟨literal.text, h, literal.colon⟩

def crate : UrlCrate where
  parse := parse
  formSerialize := formSerialize

/-- A URL put together from its components is taken apart into them. -/
theorem parse_assemble {scheme : Text} (hscheme : isScheme scheme) (parts : UrlParts) :
    parse (crate.assemble scheme parts) =
      some { scheme := scheme.map Char.toLower
             username := (credentials parts.userinfo).1
             password := (credentials parts.userinfo).2
             hostStr := some (hostOf parts.host)
             port := some parts.port
             queryPairs := parts.pairs } := by
  have hauthority := parts.mem_authority
  have hvisible : ∀ c ∈ crate.assemble scheme parts, isVisible c :=
    UrlCrate.isVisible_assemble (isVisible_of_isScheme hscheme) fun _ => mem_formSerialize
  have hsplit : splitOnce ':' (crate.assemble scheme parts) =
      some (scheme, '/' :: '/' :: (parts.authority ++ '/' ::
        if formSerialize parts.pairs = [] then [] else '?' :: formSerialize parts.pairs)) :=
    splitOnce_eq_some_iff.mpr ⟨rfl, notMem_of_isScheme hscheme⟩
  have hbefore : ∀ c ∈ '/' :: '/' :: (parts.authority ++ ['/']), c ≠ '?' ∧ c ≠ '#' := by
    simp only [List.forall_mem_append, List.forall_mem_cons]
    exact ⟨by decide, by decide, fun c hc => ne_of_not_endsAuthority (hauthority c hc).2,
      by decide, List.forall_mem_nil _⟩
  have hquery := queryOf_append hbefore fun _ hc => queryKeeps_of_isFormChar (@mem_formSerialize parts.pairs _ hc)
  rw [List.cons_append, List.cons_append, List.append_assoc, List.singleton_append] at hquery
  simp only [parse, cleaned_of_isVisible hvisible, hsplit, hscheme, if_true, parseAuthority_eq,
    authorityOf_append _ fun c hc => (hauthority c hc).2, hquery, formParse_formSerialize, Option.map_some]

theorem lawful {scheme : Text} (hscheme : isScheme scheme) (hlower : scheme.map Char.toLower = scheme) :
    crate.Lawful scheme where
  form_chars := fun _ _ => mem_formSerialize
  parses := fun parts _ => Option.isSome_of_mem (parse_assemble hscheme parts)
  reads := by
    intro parts url hparse
    obtain rfl := Option.some.inj ((parse_assemble hscheme parts).symm.trans hparse)
    exact ⟨hlower, readsUserinfo rfl rfl, readsHost rfl, rfl, rfl⟩

end Hysteria.Lib.UrlStandard
