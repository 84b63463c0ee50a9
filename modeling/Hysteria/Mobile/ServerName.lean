import Hysteria.App.Socks5Address
import Hysteria.Lib.Ipv6Text
import Hysteria.Lib.Url

/-! The server of the mobile client: `main.rs` makes the address to dial and the name to check from
the same setting, each in its own way. -/
namespace Hysteria.Mobile
open Lib Reader App.Socks5

def inferServerName (server sni : Text) : Except String Text :=
  let fromPort : Except String Text :=
    match rsplitOnce ':' server with
    | some (host, port) =>
      if (fromStrRadix 16 10 port).isSome then .ok host
      else .error "failed to infer server name; set TLS SNI explicitly"
    | none => .error "failed to infer server name; set TLS SNI explicitly"
  if trim sni ≠ [] then .ok (trim sni)
  else
    match parseSocketAddr server with
    | some addr => .ok (ipToString addr).toList
    | none =>
      if server.head? = some '[' then
        match splitOnce ']' server with
        | some (inside, _) => .ok (inside.drop 1)
        | none => fromPort
      else fromPort

def normalizeServerAddr (input : Text) : Except String Text :=
  let input := trim input
  if input = [] then .error "server must not be empty"
  else if (parseSocketAddr input).isSome then .ok input
  else if input.head? = some '[' then
    if "]:".toList <:+: input then .ok input else .ok (input ++ ":443".toList)
  else
    match parseIpAddr input with
    | some (.v4 _) => .ok (input ++ ":443".toList)
    | some (.v6 addr) => .ok ('[' :: ((ipv6ToString addr.octets).toList ++ "]:443".toList))
    | none =>
      if ((rsplitOnce ':' input).bind fun split => fromStrRadix 16 10 split.2).isSome then .ok input
      else if ':' ∈ input ∧ (parseIpv6 input).isSome then .ok ('[' :: (input ++ "]:443".toList))
      else .ok (input ++ ":443".toList)

structure ServerPort where
  digits : Text
  number : Nat
  value : portFormat.value digits = some number

/-- A name or an IPv4 address, which is written in the same characters, or an IPv6 address, bare or in
brackets. -/
inductive Server where
  | plain (host : Text) (ne_nil : host ≠ []) (chars : ∀ c ∈ host, isVisible c ∧ ¬ Url.isForbiddenHostChar c)
    (port : Option ServerPort)
  | bare (host : Text) (ip : Ipv6Addr) (parsed : parseIpv6 host = some ip)
  | bracketed (host : Text) (ip : Ipv6Addr) (parsed : parseIpv6 host = some ip) (port : Option ServerPort)

def portText (port : Option ServerPort) : Text := port.elim [] fun port => ':' :: port.digits

namespace Server

def text : Server → Text
  | .plain host _ _ port => host ++ portText port
  | .bare host _ _ => host
  | .bracketed host _ _ port => '[' :: (host ++ ']' :: portText port)

def dialled : Server → Text
  | .plain host _ _ _ => host
  | .bare _ ip _ => (ipv6ToString ip.octets).toList
  | .bracketed host _ _ _ => host

end Server

def hostPart (address : Text) : Text :=
  let host := (rsplitOnce ':' address).elim address Prod.fst
  if host.head? = some '[' ∧ host.getLast? = some ']' then (host.drop 1).dropLast else host

/-- The same text, or the same IP address -/
def SameHost (a b : Text) : Prop := a = b ∨ ∃ ip, parseIpAddr a = some ip ∧ parseIpAddr b = some ip

/-- The name that is checked is the host that is dialled. -/
def NamesDialled (server : Text) : Prop :=
  ∃ name address, inferServerName server [] = .ok name ∧ normalizeServerAddr server = .ok address ∧
    SameHost name (hostPart address)

theorem not_isWhitespace_of_isIpChar {c : Char} (h : IsIpChar c) : ¬ isWhitespace c := by
  rcases h with h | rfl | rfl
  · exact not_isWhitespace_of_toDigit h
  · decide
  · decide

theorem isIpChar_of_parseIpAddr {text : Text} {ip : IpAddr} (h : parseIpAddr text = some ip) : ∀ c ∈ text, IsIpChar c := by
  rcases parseIpAddr_cases h with ⟨ip4, -, hparse⟩ | ⟨ip6, -, hparse⟩
  · exact takes_ipv4_chars.of_whole hparse
  · exact takes_ipv6.of_whole hparse

theorem not_isWhitespace_of_parseIpv6 {text : Text} {ip : Ipv6Addr} (h : parseIpv6 text = some ip) :
    ∀ c ∈ text, ¬ isWhitespace c :=
  fun c hc => not_isWhitespace_of_isIpChar (takes_ipv6.of_whole h c hc)

theorem head_of_parseIpv6 {text : Text} {ip : Ipv6Addr} (h : parseIpv6 text = some ip) : text.head? ≠ some '[' := by
  intro hhead
  exact absurd (takes_ipv6.of_whole h _ (List.mem_of_mem_head? hhead)) (by unfold IsIpChar; decide)

theorem bracket_notMem_of_parseIpv6 {text : Text} {ip : Ipv6Addr} (h : parseIpv6 text = some ip) : ']' ∉ text :=
  fun hmem => absurd (takes_ipv6.of_whole h _ hmem) (by unfold IsIpChar; decide)

namespace ServerPort

theorem isDigit (port : ServerPort) : ∀ c ∈ port.digits, Reader.isDigit 10 c := Format.isDigit_of_value port.value

theorem colon_notMem (port : ServerPort) : ':' ∉ port.digits := fun h => absurd (port.isDigit _ h) (by decide)

theorem isSome (port : ServerPort) : (fromStrRadix 16 10 port.digits).isSome := by
  obtain ⟨hnumeral, hlt⟩ := Format.numeral_of_value port.value
  have hread : fromStrRadix 16 10 port.digits = some port.number := fromStrRadix_of_numeral (by decide) hnumeral hlt
  rw [hread]
  rfl

end ServerPort

theorem no_port {digits : Text} {c : Char} (hc : c ∈ digits) (hdigit : isDigit 10 c = false) (hplus : c ≠ '+') :
    portFormat.value digits = none ∧ fromStrRadix 16 10 digits = none := by
  constructor
  · rw [Option.eq_none_iff_forall_ne_some]
    intro n hn
    have h := Format.isDigit_of_value hn c hc
    rw [show portFormat.radix = 10 from rfl, hdigit] at h
    cases h
  · rw [Option.eq_none_iff_forall_ne_some]
    intro n hn
    rcases (fromStrRadix_chars hn).2 c hc with h | h
    · exact hplus h
    · rw [Reader.isDigit] at hdigit
      rw [h] at hdigit
      cases hdigit

theorem isDigit_of_isWhitespace {c : Char} (h : isWhitespace c) : isDigit 10 c = false := by
  rw [Bool.eq_false_iff]
  intro hdigit
  exact not_isWhitespace_of_toDigit hdigit h

theorem head_append {host : Text} (ne_nil : host ≠ []) (h : host.head? ≠ some '[') (rest : Text) :
    (host ++ rest).head? ≠ some '[' := by
  rw [List.head?_append_of_ne_nil _ ne_nil]
  exact h

section
variable {host : Text} (chars : ∀ c ∈ host, isVisible c ∧ ¬ Url.isForbiddenHostChar c)
include chars

theorem colon_notMem_plain : ':' ∉ host := fun h => absurd (chars _ h).2 (by decide)

theorem head_plain : host.head? ≠ some '[' := fun h => absurd (chars _ (List.mem_of_mem_head? h)).2 (by decide)

theorem not_isWhitespace_plain : ∀ c ∈ host, ¬ isWhitespace c := by
  intro c hc
  have hvisible := (chars c hc).1
  simp only [isVisible, Bool.and_eq_true, Bool.not_eq_true', Bool.eq_false_iff] at hvisible
  exact hvisible.2

end

namespace Server

def ofIpv4 {host : Text} {ip : Ipv4Addr} (parsed : parseIpv4 host = some ip) (port : Option ServerPort) : Server :=
  .plain host
    (by
      rintro rfl
      cases parsed)
    (fun c hc => Url.hostChar_of_ipv4 (takes_ipv4.of_whole parsed c hc))
    port

theorem not_isWhitespace_portText {port : Option ServerPort} : ∀ c ∈ portText port, ¬ isWhitespace c := by
  intro c hc
  cases port with
  | none => cases hc
  | some port =>
    rcases List.mem_cons.mp hc with rfl | hc
    · decide
    · exact not_isWhitespace_of_toDigit (port.isDigit c hc)

theorem not_isWhitespace (s : Server) : ∀ c ∈ s.text, ¬ isWhitespace c := by
  cases s with
  | plain host ne_nil chars port =>
    exact List.forall_mem_append.mpr ⟨not_isWhitespace_plain chars, not_isWhitespace_portText⟩
  | bare host ip parsed => exact not_isWhitespace_of_parseIpv6 parsed
  | bracketed host ip parsed port =>
    refine List.forall_mem_cons.mpr ⟨by decide, List.forall_mem_append.mpr ⟨?_, ?_⟩⟩
    · exact not_isWhitespace_of_parseIpv6 parsed
    · exact List.forall_mem_cons.mpr ⟨by decide, not_isWhitespace_portText⟩

theorem not_isWhitespace_dialled (s : Server) : ∀ c ∈ s.dialled, ¬ isWhitespace c := by
  cases s with
  | plain host ne_nil chars port => exact not_isWhitespace_plain chars
  | bare host ip parsed => exact not_isWhitespace_of_parseIpv6 (parseIpv6_ipv6ToString ip)
  | bracketed host ip parsed port => exact not_isWhitespace_of_parseIpv6 parsed

theorem trim_text (s : Server) : trim s.text = s.text := (Trimmed.of_forall s.not_isWhitespace).eq

theorem trim_spaced (s : Server) {before after : Text} (hbefore : ∀ c ∈ before, isWhitespace c)
    (hafter : ∀ c ∈ after, isWhitespace c) : trim (before ++ s.text ++ after) = s.text :=
  trimBy_eq hbefore (.of_forall s.not_isWhitespace) hafter

end Server

theorem hostPart_plain {host digits : Text} (hdigits : ':' ∉ digits) (hhead : host.head? ≠ some '[') :
    hostPart (host ++ ':' :: digits) = host := by
  unfold hostPart
  rw [rsplitOnce_append host hdigits]
  exact if_neg fun h => hhead h.1

theorem hostPart_bracketed (host : Text) {digits : Text} (hdigits : ':' ∉ digits) :
    hostPart ('[' :: (host ++ ']' :: ':' :: digits)) = host := by
  have hsplit : '[' :: (host ++ ']' :: ':' :: digits) = ('[' :: (host ++ [']'])) ++ ':' :: digits := by simp
  have hlast : ('[' :: (host ++ [']'])).getLast? = some ']' := by rw [← List.cons_append, List.getLast?_concat]
  unfold hostPart
  rw [hsplit, rsplitOnce_append _ hdigits]
  simp [hlast]

section
variable {input : Text} (htrim : trim input = input) (hne : input ≠ [])
include htrim hne

theorem normalizeServerAddr_socketAddr {addr : IpSocketAddr} (haddr : parseSocketAddr input = some addr) :
    normalizeServerAddr input = .ok input := by
  unfold normalizeServerAddr
  simp [htrim, hne, haddr]

theorem normalizeServerAddr_ip {ip : IpAddr} (haddr : parseSocketAddr input = none) (hhead : input.head? ≠ some '[')
    (hip : parseIpAddr input = some ip) :
    normalizeServerAddr input = match ip with
      | .v4 _ => .ok (input ++ ":443".toList)
      | .v6 addr => .ok ('[' :: ((ipv6ToString addr.octets).toList ++ "]:443".toList)) := by
  unfold normalizeServerAddr
  cases ip <;> simp [htrim, hne, haddr, hhead, hip]

theorem normalizeServerAddr_port {host digits : Text} (hsplit : input = host ++ ':' :: digits) (hdigits : ':' ∉ digits)
    (hport : (fromStrRadix 16 10 digits).isSome) (haddr : parseSocketAddr input = none)
    (hhead : input.head? ≠ some '[') (hip : parseIpAddr input = none) : normalizeServerAddr input = .ok input := by
  have hlast : rsplitOnce ':' input = some (host, digits) := by
    rw [hsplit]
    exact rsplitOnce_append host hdigits
  unfold normalizeServerAddr
  simp [htrim, hne, haddr, hhead, hip, hlast, hport]

theorem normalizeServerAddr_noColon (hcolon : ':' ∉ input) (hhead : input.head? ≠ some '[') :
    normalizeServerAddr input = .ok (input ++ ":443".toList) := by
  have haddr := parseSocketAddr_noColon hcolon
  cases hip : parseIpAddr input with
  | some ip =>
    rw [normalizeServerAddr_ip htrim hne haddr hhead hip]
    rcases parseIpAddr_cases hip with ⟨ip4, rfl, -⟩ | ⟨ip6, -, hparse⟩
    · rfl
    · exact absurd (colon_mem_of_parseIpv6 hparse) hcolon
  | none =>
    unfold normalizeServerAddr
    simp [htrim, hne, haddr, hhead, hip, hcolon, rsplitOnce_eq_none hcolon]

end

theorem parseIpAddr_oneColon {host digits : Text} (hhost : ':' ∉ host) (hdigits : ':' ∉ digits) :
    parseIpAddr (host ++ ':' :: digits) = none := by
  rw [Option.eq_none_iff_forall_ne_some]
  intro ip hip
  rcases parseIpAddr_cases hip with ⟨ip4, -, hparse⟩ | ⟨ip6, -, hparse⟩
  · have hcolon := takes_ipv4.of_whole hparse ':' (by simp)
    exact absurd hcolon (by decide)
  · have hcount := colons_of_parseIpv6 hparse
    rw [List.count_append, List.count_cons_self, List.count_eq_zero.mpr hhost, List.count_eq_zero.mpr hdigits] at hcount
    omega

theorem parseSocketAddr_bare {host : Text} {ip : Ipv6Addr} (h : parseIpv6 host = some ip) :
    parseSocketAddr host = none := by
  apply whole_of_none
  rw [orElse_apply, socketAddrV4, bind_of_none (ipv4_of_parseIpv6 h), socketAddrV6,
    bind_of_none (given_of_head (head_of_parseIpv6 h))]
  rfl

theorem parseSocketAddr_bracketed {host after : Text} {ip : Ipv6Addr} (h : parseIpv6 host = some ip)
    (hafter : ':' ∉ after) : parseSocketAddr ('[' :: (host ++ ']' :: after)) = none := by
  obtain ⟨front, last, rfl, hlast⟩ := exists_rsplit (colon_mem_of_parseIpv6 h)
  have hsplit : '[' :: (front ++ ':' :: last ++ ']' :: after) = ('[' :: front) ++ ':' :: (last ++ ']' :: after) := by simp
  rw [hsplit]
  refine parseSocketAddr_badPort (no_port (by simp) (by decide : isDigit 10 ']' = false) (by decide)).1 ?_
  simp [hlast, hafter]

theorem no_colonBehind {host : Text} (h : ']' ∉ host) : ¬ [']', ':'] <:+: '[' :: (host ++ [']']) := by
  rintro ⟨before, after, hsplit⟩
  have hsplit : (before ++ [']']) ++ (':' :: after) = ('[' :: host) ++ [']'] := by simpa using hsplit
  rcases List.append_eq_append_iff.mp hsplit with ⟨between, hhost, -⟩ | ⟨between, -, hlast⟩
  · have hmem : ']' ∈ '[' :: host := by simp [hhost]
    simp [h] at hmem
  · cases between with
    | nil => simp at hlast
    | cons c between => simp at hlast

theorem normalizeServerAddr_named {host : Text} (ne_nil : host ≠ [])
    (chars : ∀ c ∈ host, isVisible c ∧ ¬ Url.isForbiddenHostChar c) (port : ServerPort)
    (htrim : trim (host ++ ':' :: port.digits) = host ++ ':' :: port.digits) :
    normalizeServerAddr (host ++ ':' :: port.digits) = .ok (host ++ ':' :: port.digits) := by
  have hne : host ++ ':' :: port.digits ≠ [] := by simp
  cases haddr : parseSocketAddr (host ++ ':' :: port.digits) with
  | some addr => exact normalizeServerAddr_socketAddr htrim hne haddr
  | none =>
    exact normalizeServerAddr_port htrim hne rfl port.colon_notMem port.isSome haddr
      (head_append ne_nil (head_plain chars) _) (parseIpAddr_oneColon (colon_notMem_plain chars) port.colon_notMem)

theorem normalizeServerAddr_bracketed {host : Text} {ip : Ipv6Addr} (parsed : parseIpv6 host = some ip)
    (htrim : trim ('[' :: (host ++ [']'])) = '[' :: (host ++ [']'])) :
    normalizeServerAddr ('[' :: (host ++ [']'])) = .ok ('[' :: (host ++ ']' :: ':' :: "443".toList)) := by
  have haddr := @parseSocketAddr_bracketed host [] ip parsed (by simp)
  have hinfix := no_colonBehind (bracket_notMem_of_parseIpv6 parsed)
  unfold normalizeServerAddr
  simp [htrim, haddr, hinfix]

namespace Server

theorem normalizeServerAddr_text (s : Server) :
    ∃ address, normalizeServerAddr s.text = .ok address ∧ hostPart address = s.dialled := by
  have htrim := s.trim_text
  cases s with
  | plain host ne_nil chars port =>
    have hhead := head_plain chars
    cases port with
    | none =>
      simp only [text, portText, Option.elim_none, List.append_nil] at htrim ⊢
      exact ⟨_, normalizeServerAddr_noColon htrim ne_nil (colon_notMem_plain chars) hhead,
        hostPart_plain (by decide) hhead⟩
    | some port =>
      simp only [text, portText, Option.elim_some] at htrim ⊢
      exact ⟨_, normalizeServerAddr_named ne_nil chars port htrim, hostPart_plain port.colon_notMem hhead⟩
  | bare host ip parsed =>
    have hne : host ≠ [] := List.ne_nil_of_mem (colon_mem_of_parseIpv6 parsed)
    refine ⟨_, normalizeServerAddr_ip htrim hne (parseSocketAddr_bare parsed) (head_of_parseIpv6 parsed)
      (parseIpAddr_v6 parsed), ?_⟩
    exact hostPart_bracketed _ (by decide)
  | bracketed host ip parsed port =>
    cases port with
    | none => exact ⟨_, normalizeServerAddr_bracketed parsed htrim, hostPart_bracketed host (by decide)⟩
    | some port =>
      refine ⟨_, ?_, hostPart_bracketed host port.colon_notMem⟩
      exact normalizeServerAddr_socketAddr htrim (by simp [text]) (parseSocketAddr_v6 parsed port.value)

theorem namesDialled_iff (s : Server) {before after : Text} (hbefore : ∀ c ∈ before, isWhitespace c)
    (hafter : ∀ c ∈ after, isWhitespace c) :
    NamesDialled (before ++ s.text ++ after) ↔
      ∃ name, inferServerName (before ++ s.text ++ after) [] = .ok name ∧ SameHost name s.dialled := by
  obtain ⟨address, haddress, hhost⟩ := s.normalizeServerAddr_text
  have hsame : normalizeServerAddr (before ++ s.text ++ after) = .ok address := by
    rw [← haddress]
    unfold normalizeServerAddr
    rw [s.trim_spaced hbefore hafter, s.trim_text]
  unfold NamesDialled
  generalize before ++ s.text ++ after = server at hsame ⊢
  simp [hsame, hhost]

end Server

section
variable {server : Text}

theorem inferServerName_socketAddr {addr : IpSocketAddr} (h : parseSocketAddr server = some addr) :
    inferServerName server [] = .ok (ipToString addr).toList := by
  simp [inferServerName, trim_nil, h]

theorem inferServerName_bracketed {host after : Text} (hhost : ']' ∉ host)
    (h : parseSocketAddr ('[' :: (host ++ ']' :: after)) = none) :
    inferServerName ('[' :: (host ++ ']' :: after)) [] = .ok host := by
  have hsplit : splitOnce ']' ('[' :: (host ++ ']' :: after)) = some ('[' :: host, after) :=
    splitOnce_eq_some_iff.mpr ⟨by simp, by simp [hhost]⟩
  simp [inferServerName, trim_nil, h, hsplit]

theorem inferServerName_noColon (hcolon : ':' ∉ server) (hhead : server.head? ≠ some '[') :
    inferServerName server [] = .error "failed to infer server name; set TLS SNI explicitly" := by
  simp [inferServerName, trim_nil, parseSocketAddr_noColon hcolon, hhead, rsplitOnce_eq_none hcolon]

theorem inferServerName_port {host port : Text} (hport : ':' ∉ port) (hhead : (host ++ ':' :: port).head? ≠ some '[')
    (h : parseSocketAddr (host ++ ':' :: port) = none) :
    inferServerName (host ++ ':' :: port) [] =
      if (fromStrRadix 16 10 port).isSome then .ok host
      else .error "failed to infer server name; set TLS SNI explicitly" := by
  have hlast := rsplitOnce_append host hport
  generalize host ++ ':' :: port = server at hhead h hlast ⊢
  simp [inferServerName, trim_nil, h, hhead, hlast]

theorem parseSocketAddr_blank {c : Char} {text : Text} (hc : isWhitespace c) : parseSocketAddr (c :: text) = none := by
  have hdot : c ≠ '.' := by
    rintro rfl
    exact absurd hc (by decide)
  have hbracket : c ≠ '[' := by
    rintro rfl
    exact absurd hc (by decide)
  have hipv4 : ipv4 (c :: text) = none := by
    apply @ipv4_of_noDot (c :: text) [] (by simp)
    · exact stops_cons (isDigit_of_isWhitespace hc)
    · simpa using hdot
  apply whole_of_none
  rw [orElse_apply, socketAddrV4, bind_of_none hipv4, socketAddrV6, bind_of_none (given_of_head (by simpa using hbracket))]
  rfl

theorem inferServerName_blank {c : Char} {text name : Text} (hc : isWhitespace c)
    (h : inferServerName (c :: text) [] = .ok name) : c ∈ name := by
  have hbracket : (c :: text).head? ≠ some '[' := by
    intro hhead
    cases hhead
    exact absurd hc (by decide)
  by_cases hcolon : ':' ∈ c :: text
  · obtain ⟨host, port, hsplit, hport⟩ := exists_rsplit hcolon
    have haddr := @parseSocketAddr_blank c text hc
    rw [hsplit] at h hbracket haddr
    rw [inferServerName_port hport hbracket haddr] at h
    split at h
    · cases h
      cases name with
      | nil =>
        cases hsplit
        exact absurd hc (by decide)
      | cons d name =>
        cases hsplit
        exact List.mem_cons_self
    · cases h
  · rw [inferServerName_noColon hcolon hbracket] at h
    cases h

end

namespace Server

theorem sameHost_ipv6_iff {name : Text} {ip : Ipv6Addr} :
    SameHost name (ipv6ToString ip.octets).toList ↔ parseIpv6 name = some ip := by
  have hdisplayed := parseIpv6_ipv6ToString ip
  constructor
  · rintro (rfl | ⟨ip', hname, hdisplay⟩)
    · exact hdisplayed
    · cases (parseIpAddr_v6 hdisplayed).symm.trans hdisplay
      rcases parseIpAddr_cases hname with ⟨ip4, hip, -⟩ | ⟨ip6, hip, hparse⟩
      · cases hip
      · cases hip
        exact hparse
  · exact fun hname => .inr ⟨.v6 ip, parseIpAddr_v6 hname, parseIpAddr_v6 hdisplayed⟩

theorem not_namesDialled_blank (s : Server) {c : Char} {before after : Text} (hbefore : ∀ d ∈ c :: before, isWhitespace d)
    (hafter : ∀ d ∈ after, isWhitespace d) : ¬ NamesDialled (c :: before ++ s.text ++ after) := by
  rw [s.namesDialled_iff hbefore hafter]
  rintro ⟨name, hname, hsame⟩
  have hc := hbefore c List.mem_cons_self
  have hmem := inferServerName_blank hc hname
  rcases hsame with rfl | ⟨ip, hip, -⟩
  · exact s.not_isWhitespace_dialled c hmem hc
  · exact not_isWhitespace_of_isIpChar (isIpChar_of_parseIpAddr hip c hmem) hc

section
variable {after : Text} (hafter : ∀ c ∈ after, isWhitespace c)
include hafter

theorem colon_notMem_blank : ':' ∉ after := fun h => absurd (hafter _ h) (by decide)

theorem no_port_blank (hne : after ≠ []) (digits : Text) :
    portFormat.value (digits ++ after) = none ∧ fromStrRadix 16 10 (digits ++ after) = none := by
  cases after with
  | nil => exact absurd rfl hne
  | cons c after =>
    have hc := hafter c List.mem_cons_self
    refine no_port (by simp) (isDigit_of_isWhitespace hc) ?_
    rintro rfl
    exact absurd hc (by decide)

theorem namesDialled_plain {host : Text} (ne_nil : host ≠ [])
    (chars : ∀ c ∈ host, isVisible c ∧ ¬ Url.isForbiddenHostChar c) (port : Option ServerPort) :
    (∃ name, inferServerName (host ++ portText port ++ after) [] = .ok name ∧ SameHost name host) ↔
      after = [] ∧ port.isSome := by
  have hcolon := colon_notMem_plain chars
  have hblank := colon_notMem_blank hafter
  have hhead := head_append ne_nil (head_plain chars)
  cases port with
  | none =>
    have hnone := @inferServerName_noColon (host ++ after) (by simp [hcolon, hblank]) (hhead after)
    simp [portText, hnone]
  | some port =>
    by_cases hend : after = []
    · subst hend
      simp only [portText, Option.elim_some, List.append_nil, Option.isSome_some, and_self, iff_true]
      cases hip : parseIpv4 host with
      | some ip =>
        refine ⟨_, inferServerName_socketAddr (parseSocketAddr_v4 hip port.value), .inr ⟨.v4 ip, ?_, parseIpAddr_v4 hip⟩⟩
        rw [ipToString, toList_ipv4ToString]
        exact parseIpAddr_v4 (parseIpv4_text ip)
      | none =>
        have hname := inferServerName_port port.colon_notMem (hhead _)
          (parseSocketAddr_name hip (head_plain chars))
        rw [if_pos port.isSome] at hname
        exact ⟨host, hname, .inl rfl⟩
    · obtain ⟨hvalue, hread⟩ := no_port_blank hafter hend port.digits
      have hmem : ':' ∉ port.digits ++ after := by simp [port.colon_notMem, hblank]
      have hname := inferServerName_port hmem (hhead _) (parseSocketAddr_badPort hvalue hmem)
      rw [hread] at hname
      simp [portText, hname, hend]

/-- The last group is read as a port, and what stands in front of it is an address again where zeros are lost. -/
theorem namesDialled_bare {host : Text} {ip : Ipv6Addr} (parsed : parseIpv6 host = some ip) :
    (∃ name, inferServerName (host ++ after) [] = .ok name ∧ SameHost name (ipv6ToString ip.octets).toList) ↔
      after = [] ∧ EndsInZeros host := by
  have hhead := head_of_parseIpv6 parsed
  have haddr := parseSocketAddr_bare parsed
  obtain ⟨front, last, rfl, hlast⟩ := exists_rsplit (colon_mem_of_parseIpv6 parsed)
  by_cases hend : after = []
  · subst hend
    rw [List.append_nil, inferServerName_port hlast hhead haddr, eq_self, true_and]
    cases hread : fromStrRadix 16 10 last with
    | some n =>
      obtain ⟨hne, hchars⟩ := fromStrRadix_chars hread
      have hdot : '.' ∉ last := fun hmem => absurd (hchars _ hmem) (by decide)
      rw [← parseIpv6_cut_iff hne hlast hdot parsed, ← sameHost_ipv6_iff]
      simp
    | none =>
      refine iff_of_false (by simp) fun hzeros => ?_
      obtain ⟨hne, hall⟩ := hzeros.last_zeros hlast
      have hnumeral := (numeral_eq_zero_iff (by decide : 0 < 10)).mpr ⟨hne, hall⟩
      cases hread.symm.trans (fromStrRadix_of_numeral rfl hnumeral (by decide))
  · obtain ⟨hvalue, hread⟩ := no_port_blank hafter hend last
    have hmem : ':' ∉ last ++ after := by simp [hlast, colon_notMem_blank hafter]
    have hhead := head_append (by simp) hhead after
    rw [List.append_assoc, List.cons_append] at hhead ⊢
    rw [inferServerName_port hmem hhead (parseSocketAddr_badPort hvalue hmem), hread]
    simp [hend]

theorem namesDialled_bracketed {host : Text} {ip : Ipv6Addr} (parsed : parseIpv6 host = some ip) (port : Option ServerPort) :
    ∃ name, inferServerName ('[' :: (host ++ ']' :: portText port) ++ after) [] = .ok name ∧ SameHost name host := by
  have hbracket := bracket_notMem_of_parseIpv6 parsed
  have hblank := colon_notMem_blank hafter
  have hsplit : '[' :: (host ++ ']' :: portText port) ++ after = '[' :: (host ++ ']' :: (portText port ++ after)) := by simp
  rw [hsplit]
  cases port with
  | none =>
    rw [portText, Option.elim_none, List.nil_append]
    exact ⟨host, inferServerName_bracketed hbracket (parseSocketAddr_bracketed parsed hblank), .inl rfl⟩
  | some port =>
    rw [portText, Option.elim_some, List.cons_append]
    by_cases hend : after = []
    · subst hend
      have haddr := parseSocketAddr_v6 parsed port.value
      rw [List.append_nil]
      exact ⟨_, inferServerName_socketAddr haddr,
        .inr ⟨.v6 ip, parseIpAddr_v6 (parseIpv6_ipv6ToString ip), parseIpAddr_v6 parsed⟩⟩
    · have hvalue := (no_port_blank hafter hend port.digits).1
      have haddr := @parseSocketAddr_badPort ('[' :: (host ++ [']'])) _ hvalue (by simp [port.colon_notMem, hblank])
      have hparts : '[' :: (host ++ [']']) ++ ':' :: (port.digits ++ after) =
          '[' :: (host ++ ']' :: ':' :: (port.digits ++ after)) := by simp
      rw [hparts] at haddr
      exact ⟨host, inferServerName_bracketed hbracket haddr, .inl rfl⟩

end

/-- Nothing stands in front, and the host is in brackets, or it has a port and nothing stands behind. A bare IPv6 address
has nothing behind it either, and ends in two or more groups of zeros behind two colons. -/
def Agrees (before after : Text) : Server → Prop
  | .plain _ _ _ port => before = [] ∧ after = [] ∧ port.isSome
  | .bare host _ _ => before = [] ∧ after = [] ∧ EndsInZeros host
  | .bracketed _ _ _ _ => before = []

/-- For every server with blanks around it: the name that is inferred is the host that is dialled exactly in
these cases. -/
theorem server_name_iff (s : Server) (before after : Text) (hbefore : ∀ c ∈ before, isWhitespace c)
    (hafter : ∀ c ∈ after, isWhitespace c) : NamesDialled (before ++ s.text ++ after) ↔ s.Agrees before after := by
  cases before with
  | nil =>
    rw [s.namesDialled_iff hbefore hafter, List.nil_append]
    cases s with
    | plain host ne_nil chars port =>
      rw [Agrees, eq_self, true_and]
      exact namesDialled_plain hafter ne_nil chars port
    | bare host ip parsed =>
      rw [Agrees, eq_self, true_and]
      exact namesDialled_bare hafter parsed
    | bracketed host ip parsed port =>
      rw [Agrees, eq_self, iff_true]
      exact namesDialled_bracketed hafter parsed port
  | cons c before =>
    refine iff_of_false (s.not_namesDialled_blank hbefore hafter) ?_
    cases s <;> simp [Agrees]

def proxy443 : Server :=
  .plain "proxy.example".toList (by decide) (Url.hostChars_of_all (by decide)) (some ⟨"443".toList, 443, by decide⟩)

theorem server_name_example : proxy443.text = "proxy.example:443".toList ∧ NamesDialled "proxy.example:443".toList :=
  ⟨by decide, (server_name_iff proxy443 [] [] nofun nofun).mpr ⟨rfl, rfl, rfl⟩⟩

end Server

/-- Without a port there is no name, a bare address loses its last group, and a blank gets into the name. -/
theorem server_name_differs :
    (inferServerName "example.com".toList [] = .error "failed to infer server name; set TLS SNI explicitly" ∧
        normalizeServerAddr "example.com".toList = .ok "example.com:443".toList) ∧
      (inferServerName "2001:db8::1".toList [] = .ok "2001:db8:".toList ∧
        normalizeServerAddr "2001:db8::1".toList = .ok "[2001:db8::1]:443".toList) ∧
      (inferServerName " example.com:443".toList [] = .ok " example.com".toList ∧
        normalizeServerAddr " example.com:443".toList = .ok "example.com:443".toList) := by
  decide +kernel

end Hysteria.Mobile
