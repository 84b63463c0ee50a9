import Hysteria.App.HttpHead
import Hysteria.App.Socks5Address
import Hysteria.Lib.Url

/-! Where a request with an absolute target goes: the target is put together from a host, a
port, a path and a query, and the proxy has to find them again. -/
namespace Hysteria.App.HttpProxy
open Lib Reader

def displayed : IpSocketAddr → SocketAddr
  | .v4 ip port => .v4 (Socks5.ipv4ToString ip.a ip.b ip.c ip.d).toList port
  | .v6 ip port _ => .v6 (Socks5.ipv6ToString ip.octets).toList port

theorem isIpChar_displayed (addr : IpSocketAddr) : ∀ c ∈ (displayed addr).ip, IsIpChar c := by
  cases addr with
  | v4 ip port =>
    rw [displayed, SocketAddr.ip, Socks5.toList_ipv4ToString]
    exact takes_ipv4_chars.of_whole (parseIpv4_text ip)
  | v6 ip port scope => exact takes_ipv6.of_whole (Socks5.parseIpv6_ipv6ToString ip)

def socketAddrs : SocketAddrs where
  parse text := (parseSocketAddr text).map displayed
  oneLine := by
    intro text addr h hmem
    obtain ⟨ip, -, rfl⟩ := Option.map_eq_some_iff.mp h
    exact absurd (isIpChar_displayed ip _ hmem) (by unfold IsIpChar; decide)

inductive HostValue where
  | name (text : Text)
  | ipv4 (ip : Ipv4Addr)
  | ipv6 (ip : Ipv6Addr)
deriving DecidableEq, Repr

/-- A registered name or an IPv4 address, which is written in the same characters, or an IPv6
address in brackets. -/
inductive TargetHost where
  | name (text : Text) (chars : ∀ c ∈ text, isVisible c ∧ ¬ Url.isForbiddenHostChar c)
  | ipv6 (text : Text) (ip : Ipv6Addr) (parsed : parseIpv6 text = some ip)

def TargetHost.text : TargetHost → Text
  | .name text _ => text
  | .ipv6 text _ _ => '[' :: (text ++ [']'])

def TargetHost.value : TargetHost → HostValue
  | .name text _ => (parseIpv4 text).elim (.name text) .ipv4
  | .ipv6 _ ip _ => .ipv6 ip

structure TargetPort where
  digits : Text
  number : Nat
  denoted : numeral 10 digits = some number

structure HostPort where
  host : TargetHost
  port : Option TargetPort

namespace HostPort

def text (authority : HostPort) : Text :=
  match authority.port with
  | none => authority.host.text
  | some port => authority.host.text ++ ':' :: port.digits

@[simp] theorem text_none (host : TargetHost) : (⟨host, none⟩ : HostPort).text = host.text := rfl

@[simp] theorem text_some (host : TargetHost) (port : TargetPort) :
    (⟨host, some port⟩ : HostPort).text = host.text ++ ':' :: port.digits := rfl

def portNumber (authority : HostPort) : Nat := (authority.port.map TargetPort.number).getD 80

def address (authority : HostPort) : Text :=
  authority.host.text ++ ':' :: (authority.port.map TargetPort.digits).getD "80".toList

/-- The text of a `Host` field denotes the same host and port. -/
def Denoted (authority : HostPort) (field : Text) : Prop :=
  ∃ other : HostPort, field = other.text ∧ other.host.value = authority.host.value ∧
    other.portNumber = authority.portNumber

end HostPort

structure Target where
  authority : HostPort
  path : Text
  rooted : path ≠ [] → path.head? = some '/'
  query : Option Text

namespace Target

def queryText (target : Target) : Text := target.query.elim [] ('?' :: ·)

def text (target : Target) : Text :=
  "http://".toList ++ (target.authority.text ++ (target.path ++ target.queryText))

def origin (target : Target) : Text := (if target.path = [] then ['/'] else target.path) ++ target.queryText

/-- The proxy connects to the host and the port of the target, asks there for its path and query,
and names the host in a way that denotes it. -/
def Routed (target : Target) (headers : Headers) : Prop :=
  ∃ field, parseProxyTarget socketAddrs target.text headers = .ok (target.authority.address, target.origin, field) ∧
    target.authority.Denoted field

end Target

def Inner (c : Char) : Prop := isVisible c ∧ c ≠ '/' ∧ c ≠ '?'

instance : DecidablePred Inner := fun _ => inferInstanceAs (Decidable (_ ∧ _))

theorem inner_of_isDigit {radix : Nat} {c : Char} (hslash : isDigit radix '/' = false)
    (hmark : isDigit radix '?' = false) (h : isDigit radix c) : Inner c := by
  have hrange := toDigit_range h
  refine ⟨isVisible_of_isPrintable ?_, ?_, ?_⟩
  · simp only [isPrintable, Bool.and_eq_true, decide_eq_true_iff]
    omega
  · rintro rfl
    rw [hslash] at h
    cases h
  · rintro rfl
    rw [hmark] at h
    cases h

theorem inner_of_isIpChar {c : Char} (h : IsIpChar c) : Inner c := by
  rcases h with h | rfl | rfl
  · exact inner_of_isDigit (by decide) (by decide) h
  · decide
  · decide

theorem TargetHost.inner (host : TargetHost) : ∀ c ∈ host.text, Inner c := by
  intro c hc
  cases host with
  | name text chars =>
    obtain ⟨hvisible, hallowed⟩ := chars c hc
    refine ⟨hvisible, ?_, ?_⟩
    · rintro rfl
      exact hallowed (by decide)
    · rintro rfl
      exact hallowed (by decide)
  | ipv6 text ip parsed =>
    rcases List.mem_cons.mp hc with rfl | hc
    · decide
    · rcases List.mem_append.mp hc with hc | hc
      · exact inner_of_isIpChar (takes_ipv6.of_whole parsed c hc)
      · rw [List.mem_singleton.mp hc]
        decide

theorem hostChars_ipv4 (ip : Ipv4Addr) : ∀ c ∈ ip.text, isVisible c ∧ ¬ Url.isForbiddenHostChar c :=
  fun c hc => Url.hostChar_of_ipv4 (takes_ipv4.of_whole (parseIpv4_text ip) c hc)

theorem TargetPort.isDigit (port : TargetPort) : ∀ c ∈ port.digits, isDigit 10 c :=
  (numeral_digits port.denoted).2

theorem TargetPort.colon_notMem (port : TargetPort) : ':' ∉ port.digits :=
  fun h => absurd (port.isDigit _ h) (by decide)

theorem TargetPort.value_digits (port : TargetPort) (h : port.number < 65536) :
    portFormat.value port.digits = some port.number := by
  simp [Format.value, portFormat, port.denoted, h]

theorem TargetPort.value_large (port : TargetPort) (h : ¬ port.number < 65536) :
    portFormat.value port.digits = none := by
  simp [Format.value, portFormat, port.denoted, h]

namespace HostPort

theorem inner (authority : HostPort) : ∀ c ∈ authority.text, Inner c := by
  obtain ⟨host, port⟩ := authority
  cases port with
  | none => exact host.inner
  | some port =>
    refine List.forall_mem_append.mpr ⟨host.inner, List.forall_mem_cons.mpr ⟨by decide, ?_⟩⟩
    exact fun c hc => inner_of_isDigit (by decide) (by decide) (port.isDigit c hc)

theorem trim_text (authority : HostPort) : trim authority.text = authority.text :=
  trim_of_isVisible fun c hc => (authority.inner c hc).1

theorem slash_notMem (authority : HostPort) : '/' ∉ authority.text := fun h => (authority.inner _ h).2.1 rfl

theorem denoted_text (authority : HostPort) : authority.Denoted authority.text := ⟨authority, rfl, rfl, rfl⟩

theorem denoted_host {host : TargetHost} {port : TargetPort} (h : port.number = 80) :
    (⟨host, some port⟩ : HostPort).Denoted host.text := ⟨⟨host, none⟩, rfl, rfl, h.symm⟩

theorem normalizeHostHeader_text (authority : HostPort) (hne : authority.text ≠ []) :
    normalizeHostHeader socketAddrs authority.text =
      match (parseSocketAddr authority.text).map displayed with
      | some (.v4 ip port) => .ok (if port = 80 then ip else authority.text)
      | some (.v6 ip port) => .ok (if port = 80 then '[' :: ip ++ [']'] else authority.text)
      | none =>
        if ":80".toList.isSuffixOf authority.text then .ok (authority.text.take (authority.text.length - 3))
        else .ok authority.text := by
  rw [normalizeHostHeader, trim_text, if_neg hne]
  rfl

theorem denoted_of_noSocketAddr {host : TargetHost} {port : TargetPort}
    (h : parseSocketAddr (⟨host, some port⟩ : HostPort).text = none) :
    ∃ field, normalizeHostHeader socketAddrs (⟨host, some port⟩ : HostPort).text = .ok field ∧
      (⟨host, some port⟩ : HostPort).Denoted field := by
  have hne : (⟨host, some port⟩ : HostPort).text ≠ [] := by simp [text]
  rw [normalizeHostHeader_text _ hne, h]
  dsimp only [Option.map_none]
  split
  · next hsuffix =>
    obtain ⟨before, hbefore⟩ := List.isSuffixOf_iff_suffix.mp hsuffix
    have hsplit := congrArg (rsplitOnce ':') hbefore
    have heighty : rsplitOnce ':' (before ++ ":80".toList) = some (before, "80".toList) :=
      rsplitOnce_append before (by decide)
    rw [heighty, text_some, rsplitOnce_append _ port.colon_notMem, Option.some.injEq, Prod.mk.injEq] at hsplit
    have hnumber : port.number = 80 := by
      have hdenoted := port.denoted
      rw [← hsplit.2] at hdenoted
      exact (Option.some.inj hdenoted).symm
    have hlength : host.text.length = (⟨host, some port⟩ : HostPort).text.length - 3 := by
      rw [text_some, ← hsplit.2, List.length_append]
      rfl
    refine ⟨_, rfl, ?_⟩
    rw [← hlength, text_some, List.take_left]
    exact denoted_host hnumber
  · exact ⟨_, rfl, denoted_text _⟩

theorem denoted_of_port (host : TargetHost) (port : TargetPort) :
    ∃ field, normalizeHostHeader socketAddrs (⟨host, some port⟩ : HostPort).text = .ok field ∧
      (⟨host, some port⟩ : HostPort).Denoted field := by
  have hne : (⟨host, some port⟩ : HostPort).text ≠ [] := by simp [text]
  by_cases hlt : port.number < 65536
  · have hvalue := port.value_digits hlt
    cases host with
    | name name chars =>
      cases hip : parseIpv4 name with
      | none =>
        apply denoted_of_noSocketAddr
        apply parseSocketAddr_name hip
        intro hhead
        exact (chars _ (List.mem_of_mem_head? hhead)).2 (by decide)
      | some ip =>
        have hparse : parseSocketAddr (⟨.name name chars, some port⟩ : HostPort).text = some (.v4 ip port.number) :=
          parseSocketAddr_v4 hip hvalue
        rw [normalizeHostHeader_text _ hne, hparse]
        dsimp only [Option.map_some, displayed]
        split
        · next heighty =>
          refine ⟨_, rfl, ⟨.name ip.text (hostChars_ipv4 ip), none⟩, Socks5.toList_ipv4ToString ip, ?_, heighty.symm⟩
          simp [TargetHost.value, hip]
        · exact ⟨_, rfl, denoted_text _⟩
    | ipv6 name ip parsed =>
      have hparse : parseSocketAddr (⟨.ipv6 name ip parsed, some port⟩ : HostPort).text =
          some (.v6 ip port.number 0) := by
        rw [text_some, TargetHost.text, List.cons_append, List.append_assoc]
        exact parseSocketAddr_v6 parsed hvalue
      rw [normalizeHostHeader_text _ hne, hparse]
      dsimp only [Option.map_some, displayed]
      split
      · next heighty =>
        exact ⟨_, rfl, ⟨.ipv6 _ ip (Socks5.parseIpv6_ipv6ToString ip), none⟩, rfl, rfl, heighty.symm⟩
      · exact ⟨_, rfl, denoted_text _⟩
  · apply denoted_of_noSocketAddr
    exact parseSocketAddr_badPort (port.value_large hlt) port.colon_notMem

/-- A port is given, or the default port can be put behind the host. -/
def Complete (authority : HostPort) : Prop :=
  match authority.port, authority.host with
  | some _, _ => True
  | none, .name text _ => text ≠ []
  | none, .ipv6 _ _ _ => False

theorem authorityToAddr_of_colon {addrs : SocketAddrs} {text : Text} (htrim : trim text = text) (hcolon : ':' ∈ text) :
    authorityToAddr addrs text = .ok text := by
  have hne : text ≠ [] := List.ne_nil_of_mem hcolon
  rw [authorityToAddr, htrim]
  dsimp only
  rw [if_neg hne, if_pos hcolon]
  split_ifs <;> rfl

theorem colon_notMem_name {text : Text} (chars : ∀ c ∈ text, isVisible c ∧ ¬ Url.isForbiddenHostChar c) : ':' ∉ text :=
  fun h => (chars _ h).2 (by decide)

theorem authorityToAddr_iff (authority : HostPort) :
    authorityToAddr socketAddrs authority.text = .ok authority.address ↔ authority.Complete := by
  have htrim := authority.trim_text
  obtain ⟨host, port⟩ := authority
  cases port with
  | some port =>
    refine iff_of_true ?_ trivial
    exact authorityToAddr_of_colon htrim (by simp)
  | none =>
    cases host with
    | ipv6 text ip parsed =>
      refine iff_of_false ?_ id
      rw [authorityToAddr_of_colon htrim (by simp [TargetHost.text, colon_mem_of_parseIpv6 parsed])]
      intro h
      have hlength := congrArg List.length (Except.ok.inj h)
      simp [address] at hlength
    | name text chars =>
      have hcolon := colon_notMem_name chars
      have hparse : socketAddrs.parse text = none := by
        change (parseSocketAddr text).map displayed = none
        rw [parseSocketAddr_noColon hcolon]
        rfl
      have hbracket : ¬ (text.head? = some '[' ∧ (findSeq [']', ':'] text).isSome) := by
        rintro ⟨hhead, -⟩
        exact (chars _ (List.mem_of_mem_head? hhead)).2 (by decide)
      rw [text_none, TargetHost.text] at htrim ⊢
      rw [authorityToAddr, hparse, htrim]
      dsimp only
      rw [if_neg (by decide), if_neg hbracket, if_neg hcolon]
      by_cases hne : text = []
      · rw [if_pos hne]
        exact iff_of_false nofun fun h => h hne
      · rw [if_neg hne]
        exact iff_of_true rfl hne

theorem denoted_of_complete {authority : HostPort} (h : authority.Complete) :
    ∃ field, normalizeHostHeader socketAddrs authority.text = .ok field ∧ authority.Denoted field := by
  obtain ⟨host, port⟩ := authority
  cases port with
  | some port => exact denoted_of_port host port
  | none =>
    cases host with
    | ipv6 text ip parsed => exact h.elim
    | name text chars =>
      have hcolon := colon_notMem_name chars
      have hsuffix : ¬ ":80".toList.isSuffixOf text = true := by
        intro hsuffix
        exact hcolon ((List.isSuffixOf_iff_suffix.mp hsuffix).subset (by decide))
      have hne : (⟨.name text chars, none⟩ : HostPort).text ≠ [] := h
      rw [normalizeHostHeader_text _ hne, text_none, TargetHost.text, parseSocketAddr_noColon hcolon]
      exact ⟨text, if_neg hsuffix, denoted_text _⟩

end HostPort

namespace Target

theorem parseProxyTarget_text (target : Target) (headers : Headers) :
    parseProxyTarget socketAddrs target.text headers = (do
      let split := splitAuthorityAndPath (target.authority.text ++ (target.path ++ target.queryText))
      let requestAddr ← authorityToAddr socketAddrs split.1
      let hostHeader ← normalizeHostHeader socketAddrs split.1
      return (requestAddr, split.2, hostHeader)) := rfl

theorem splitAuthorityAndPath_rooted {authority path : Text} (hauthority : '/' ∉ authority) (hpath : path.head? = some '/') :
    splitAuthorityAndPath (authority ++ path) = (authority, path) := by
  obtain ⟨rest, rfl⟩ := List.head?_eq_some_iff.mp hpath
  have hall : ∀ c ∈ authority, decide (c ≠ '/') = true := fun c hc => decide_eq_true fun h => hauthority (h ▸ hc)
  rw [splitAuthorityAndPath, if_pos (by simp), List.takeWhile_append_of_pos hall, List.dropWhile_append_of_pos hall]
  simp

theorem mark_mem_split {authority query : Text} (hauthority : '/' ∉ authority) :
    '?' ∈ (splitAuthorityAndPath (authority ++ '?' :: query)).1 := by
  have hall : ∀ c ∈ authority, decide (c ≠ '/') = true := fun c hc => decide_eq_true fun h => hauthority (h ▸ hc)
  rw [splitAuthorityAndPath]
  split
  · rw [List.takeWhile_append_of_pos hall]
    simp
  · simp

theorem mark_mem_authorityToAddr {addrs : SocketAddrs} {authority addr : Text} (hmark : '?' ∈ authority)
    (h : authorityToAddr addrs authority = .ok addr) : '?' ∈ addr := by
  have htrim : '?' ∈ trim authority := mem_trimBy hmark (by decide)
  rw [authorityToAddr] at h
  dsimp only at h
  split_ifs at h <;> cases h
  · exact hmark
  · exact htrim
  · exact htrim
  · exact List.mem_append_left _ htrim

theorem mark_notMem_address (authority : HostPort) : '?' ∉ authority.address := by
  have hhost : '?' ∉ authority.host.text := fun h => (authority.host.inner _ h).2.2 rfl
  obtain ⟨host, port⟩ := authority
  cases port with
  | none => simpa [HostPort.address] using hhost
  | some port =>
    have hdigits : '?' ∉ port.digits := fun h => absurd (port.isDigit _ h) (by decide)
    simpa [HostPort.address, hdigits] using hhost

theorem splitAuthorityAndPath_text {target : Target} (h : target.query.isSome → target.path ≠ []) :
    splitAuthorityAndPath (target.authority.text ++ (target.path ++ target.queryText)) =
      (target.authority.text, target.origin) := by
  have hslash := target.authority.slash_notMem
  by_cases hpath : target.path = []
  · have hquery : target.queryText = [] := by
      rw [queryText, Option.not_isSome_iff_eq_none.mp fun hsome => h hsome hpath]
      rfl
    rw [origin, if_pos hpath, hpath, hquery, List.append_nil, List.append_nil, splitAuthorityAndPath, if_neg hslash]
    rfl
  · rw [origin, if_neg hpath]
    apply splitAuthorityAndPath_rooted hslash
    rw [List.head?_append_of_ne_nil _ hpath]
    exact target.rooted hpath

/-- A target goes to its host and port exactly if a query has a path before it and the default
port is left out behind a name only. -/
theorem routed_iff (target : Target) (headers : Headers) :
    target.Routed headers ↔ (target.query.isSome → target.path ≠ []) ∧ target.authority.Complete := by
  constructor
  · rintro ⟨field, hparse, -⟩
    rw [parseProxyTarget_text] at hparse
    obtain ⟨addr, haddr, hmore⟩ := bind_eq_ok.mp hparse
    obtain ⟨header, -, hresult⟩ := bind_eq_ok.mp hmore
    obtain rfl : addr = target.authority.address := congrArg Prod.fst (Except.ok.inj hresult)
    have hrooted : target.query.isSome → target.path ≠ [] := by
      intro hsome hpath
      obtain ⟨query, hquery⟩ := Option.isSome_iff_exists.mp hsome
      rw [hpath, queryText, hquery] at haddr
      exact mark_notMem_address _ (mark_mem_authorityToAddr (mark_mem_split target.authority.slash_notMem) haddr)
    rw [splitAuthorityAndPath_text hrooted] at haddr
    exact ⟨hrooted, target.authority.authorityToAddr_iff.mp haddr⟩
  · rintro ⟨hrooted, hcomplete⟩
    obtain ⟨field, hfield, hdenoted⟩ := HostPort.denoted_of_complete hcomplete
    refine ⟨field, ?_, hdenoted⟩
    rw [parseProxyTarget_text, splitAuthorityAndPath_text hrooted]
    exact bind_eq_ok.mpr ⟨_, target.authority.authorityToAddr_iff.mpr hcomplete,
      bind_eq_ok.mpr ⟨field, hfield, rfl⟩⟩

def bareAddress : Target where
  authority := ⟨.ipv6 "::1".toList ⟨List.replicate 15 0 ++ [1], rfl⟩ (by decide +kernel), none⟩
  path := ['/']
  rooted := fun _ => rfl
  query := none

def bareQuery : Target where
  authority := ⟨.name ['a'] (List.forall_mem_singleton.mpr (by decide)), none⟩
  path := []
  rooted := fun h => absurd rfl h
  query := some "b:1/c".toList

/-- The address of the one has no port. The other goes to an address that no host has, and its
path is cut out of its query. -/
theorem bare_targets_misrouted :
    (parseProxyTarget socketAddrs bareAddress.text [] = .ok ("[::1]".toList, ['/'], "[::1]".toList) ∧
      ¬ bareAddress.Routed []) ∧
    parseProxyTarget socketAddrs bareQuery.text [] = .ok ("a?b:1".toList, "/c".toList, "a?b:1".toList) ∧
      ¬ bareQuery.Routed [] := by
  have haddress : parseProxyTarget socketAddrs bareAddress.text [] = .ok ("[::1]".toList, ['/'], "[::1]".toList) := by
    decide +kernel
  have hquery : parseProxyTarget socketAddrs bareQuery.text [] =
      .ok ("a?b:1".toList, "/c".toList, "a?b:1".toList) := by
    decide +kernel
  refine ⟨⟨haddress, ?_⟩, hquery, ?_⟩
  · rintro ⟨field, hrouted, -⟩
    rw [haddress] at hrouted
    have haddr : "[::1]".toList = bareAddress.authority.address := congrArg Prod.fst (Except.ok.inj hrouted)
    exact absurd haddr (by decide)
  · rintro ⟨field, hrouted, -⟩
    rw [hquery] at hrouted
    have haddr : "a?b:1".toList = bareQuery.authority.address := congrArg Prod.fst (Except.ok.inj hrouted)
    exact absurd haddr (by decide)

end Target

end Hysteria.App.HttpProxy
