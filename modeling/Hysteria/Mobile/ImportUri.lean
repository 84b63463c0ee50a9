import Hysteria.App.ShareUri
import Hysteria.Lib.UrlStandard

/-! The mobile client's import of a share URI, `import_share_uri`, beside the app's. -/
namespace Hysteria.Mobile
open Lib App

/-- The form as an import leaves it; what a URI does not carry is at its default. -/
structure ImportedForm where
  importUri : Text
  server : Text
  auth : Text
  obfsPassword : Text
  sni : Text
  caPath : Text := []
  pinSha256 : Text
  bandwidthUp : Text := []
  bandwidthDown : Text := []
  quicInitStreamReceiveWindow : Text := []
  quicMaxStreamReceiveWindow : Text := []
  quicInitConnectionReceiveWindow : Text := []
  quicMaxConnectionReceiveWindow : Text := []
  quicMaxIdleTimeout : Text := []
  quicKeepAlivePeriod : Text := []
  localUdpEnabled : Bool := true
  quicDisablePathMtuDiscovery : Bool := false
  insecureTls : Bool
deriving DecidableEq, Repr

def decodeUserinfoComponent : Text → Except Chain Text :=
  decodeUserinfo "invalid percent-encoding in URI auth" "invalid hex digit" "URI auth is not valid UTF-8"

def importedAuth (uri : Url) : Except Chain Text :=
  match uri.username, uri.password with
  | [], none => .ok []
  | user, some password => do
    let user ← decodeUserinfoComponent user
    let password ← decodeUserinfoComponent password
    return joinAuth user (some password)
  | user, none => decodeUserinfoComponent user

def importedObfsPassword (query : PartialMap Text Text) : Except Chain Text :=
  let password := (query.get "obfs-password".toList).getD []
  let type := ((query.get "obfs".toList).map toAsciiLowercase).getD []
  if type ≠ [] ∧ type ≠ "plain".toList ∧ type ≠ "salamander".toList then
    .error ["unsupported obfs type " ++ String.ofList type]
  else .ok (if type = "salamander".toList then password else [])

/-- Where the URI names no port, it is 443. -/
def importShareUri (crate : UrlCrate) (input : Text) : Except Chain ImportedForm :=
  match crate.parse (trim input) with
  | none => .error ["failed to parse share URI"]
  | some uri =>
    if uri.scheme = "hy2".toList ∨ uri.scheme = "hysteria2".toList then
      match uri.hostStr with
      | none => .error ["share URI is missing a host"]
      | some host => do
        let auth ← importedAuth uri
        let query := PartialMap.ofPairs uri.queryPairs
        let obfsPassword ← importedObfsPassword query
        return {
          importUri := trim input
          server := hostPort host (uri.port.getD 443)
          auth
          obfsPassword
          sni := (query.get "sni".toList).getD []
          pinSha256 := (query.get "pinSHA256".toList).getD []
          insecureTls := ((query.get "insecure".toList).bind parseBoolLike).getD false }
    else .error ["unsupported URI scheme " ++ String.ofList uri.scheme]

def ImportedForm.settings (form : ImportedForm) : Settings where
  server := form.server
  auth := form.auth
  obfsPassword := form.obfsPassword
  sni := form.sni
  insecure := form.insecureTls
  pinSha256 := form.pinSha256

theorem importedAuth_eq {uri : Url} {username : Text} {password : Option Text}
    (husername : Unescapes (utf8 uri.username) (utf8 username))
    (hpassword : Option.Rel (fun read text => Unescapes (utf8 read) (utf8 text)) uri.password password) :
    importedAuth uri = .ok (joinAuth username password) := by
  rw [importedAuth]
  generalize uri.password = read at hpassword
  generalize uri.username = user at husername
  cases hpassword with
  | none =>
    cases user with
    | nil =>
      rw [eq_nil_of_unescapes husername]
      rfl
    | cons c user => exact decodeUserinfo_of_unescapes husername
  | some hdecoded =>
    simp only [decodeUserinfoComponent, decodeUserinfo_of_unescapes husername, decodeUserinfo_of_unescapes hdecoded]
    rfl

theorem importShareUri_of_parse {crate : UrlCrate} {input : Text} {uri : Url} {host auth obfsPassword : Text}
    {query : PartialMap Text Text} (hparse : crate.parse (trim input) = some uri)
    (hscheme : uri.scheme = "hysteria2".toList) (hhost : uri.hostStr = some host)
    (hquery : PartialMap.ofPairs uri.queryPairs = query) (hauth : importedAuth uri = .ok auth)
    (hobfs : importedObfsPassword query = .ok obfsPassword) :
    (importShareUri crate input).map ImportedForm.settings = .ok
      { server := hostPort host (uri.port.getD 443)
        auth
        obfsPassword
        sni := (query.get "sni".toList).getD []
        insecure := ((query.get "insecure".toList).bind parseBoolLike).getD false
        pinSha256 := (query.get "pinSHA256".toList).getD [] } := by
  rw [importShareUri]
  simp only [hparse]
  rw [if_pos (.inr hscheme)]
  simp only [hhost, hauth, hquery, hobfs]
  rfl

section
variable {crate : UrlCrate} {host : Host} {port : UInt16} {config : ClientConfig}

theorem importedObfsPassword_shared (config : ClientConfig) :
    importedObfsPassword config.sharedQuery = .ok config.settings.obfsPassword := by
  have hlower : toAsciiLowercase "salamander".toList = "salamander".toList := by decide
  obtain ⟨hobfs, hpassword, -⟩ := config.get_sharedQuery
  simp only [importedObfsPassword, hobfs, hpassword, ClientConfig.settings]
  by_cases htype : toAsciiLowercase (trim config.obfs.type) = "salamander".toList
  · simp only [if_pos htype, Option.map_some, Option.getD_some, hlower, ne_eq, not_true_eq_false, and_false, if_false]
    rfl
  · simp only [if_neg htype, Option.map_none, Option.getD_none]
    rfl

theorem importShareUri_uri (h : Shareable host port config) (hcrate : crate.Lawful "hysteria2".toList) {uri : Url}
    {read : Text} (hparse : crate.parse (crate.assemble "hysteria2".toList (config.parts host port)) = some uri)
    (hread : uri.hostStr = some read) :
    (importShareUri crate (crate.assemble "hysteria2".toList (config.parts host port))).map ImportedForm.settings =
      .ok { config.settings.normalized with
        server := hostPort read port
        auth := restoredAuth config.auth } := by
  have hreads := hcrate.reads _ _ hparse
  obtain ⟨username, password, husername, hpassword, hauth⟩ := joinAuth_of_reads hreads.userinfo
  obtain ⟨hsni, hinsecure, hpin⟩ := h.query
  have hquery : PartialMap.ofPairs uri.queryPairs = config.sharedQuery := by
    rw [hreads.queryPairs_eq]
    rfl
  rw [← trim_assemble hcrate] at hparse
  have himport := importShareUri_of_parse hparse hreads.scheme_eq hread hquery (importedAuth_eq husername hpassword)
    (importedObfsPassword_shared config)
  rw [himport, hauth, hsni, hinsecure, hpin, hreads.port_eq]
  rfl

theorem toNat_lt_of_mem_hostPort {read : Text} (hread : ∀ c ∈ read, c.toNat < 127) :
    ∀ c ∈ hostPort read port, c.toNat < 127 := by
  have hdigits : ∀ c ∈ Nat.toDigits 10 port.toNat, c.toNat < 127 := by
    intro c hc
    have := UrlParts.toDigits_range hc
    omega
  rw [hostPort]
  split
  · simp only [List.forall_mem_cons, List.forall_mem_append]
    exact ⟨by decide, ⟨hread, by decide, by decide, List.forall_mem_nil _⟩, hdigits⟩
  · simp only [List.forall_mem_cons, List.forall_mem_append]
    exact ⟨hread, by decide, hdigits⟩

theorem hostPort_eq_iff {uri : Url} {read : Text} (hhost : uri.ReadsHost host) (hread : uri.hostStr = some read) :
    hostPort read port = host.text ++ ':' :: Nat.toDigits 10 port.toNat ↔ host.isPlain := by
  cases host with
  | name name =>
    obtain ⟨read', hread', hascii, hplain⟩ := hhost
    obtain rfl := Option.some.inj (hread.symm.trans hread')
    constructor
    · intro heq
      rw [Host.isPlain, List.all_eq_true]
      intro c hc
      have hmem : c ∈ hostPort read port := by
        rw [heq]
        exact List.mem_append_left _ hc
      have hsmall := toNat_lt_of_mem_hostPort hascii c hmem
      have hvisible := (name.chars c hc).1
      simp only [isVisible, isPrintable, Bool.and_eq_true, decide_eq_true_iff] at hvisible ⊢
      omega
    · intro hall
      have hcolon : ':' ∉ name.text := fun h => (name.chars ':' h).2 (by decide)
      rw [hplain hall, hostPort, if_neg hcolon]
      rfl
  | ipv6 literal =>
    obtain ⟨address, haddress, hcolon⟩ := hhost
    obtain rfl := Option.some.inj (hread.symm.trans haddress)
    rw [hostPort, if_pos (List.mem_cons_of_mem _ (List.mem_append_left _ hcolon))]
    refine iff_of_false (fun heq => ?_) Bool.false_ne_true
    -- behind its bracket the literal has a digit or a colon
    have hinner : literal.text ≠ [] := List.ne_nil_of_mem literal.colon
    obtain ⟨c, rest, htext⟩ := List.exists_cons_of_ne_nil hinner
    have hc := literal.chars c (by rw [htext]; exact List.mem_cons_self)
    rw [Host.text, htext] at heq
    obtain rfl : '[' = c := (List.cons.inj (List.cons.inj heq).2).1
    revert hc
    decide

/-- A configuration comes back from its URI, in the app and on the phone, exactly where its
server is a name in ASCII and something stands behind the first colon of its auth string. -/
theorem share_roundtrip_iff (hcrate : crate.Lawful "hysteria2".toList) (h : Shareable host port config) :
    (∃ uri, buildShareUri crate config = .ok uri ∧
      (normalizeClientConfig crate { server := uri }).map ClientConfig.settings = .ok config.settings.normalized ∧
      (importShareUri crate uri).map ImportedForm.settings = .ok config.settings.normalized) ↔
    host.isPlain ∧ ∀ username, splitOnce ':' config.auth ≠ some (username, []) := by
  have hbuild := @Shareable.buildShareUri_eq crate _ _ _ h
  cases hparse : crate.parse (crate.assemble "hysteria2".toList (config.parts host port)) with
  | none =>
    -- the phone reads nothing, and the host was none in ASCII
    refine iff_of_false ?_ fun hplain => ?_
    · rintro ⟨uri, huri, -, himport⟩
      obtain rfl := Except.ok.inj (hbuild.symm.trans huri)
      rw [importShareUri, trim_assemble hcrate, hparse] at himport
      cases himport
    · have hsome := hcrate.parses (config.parts host port) hplain.1
      rw [hparse] at hsome
      cases hsome
  | some uri =>
    have hhost : uri.ReadsHost host := (hcrate.reads _ _ hparse).host
    obtain ⟨read, hread⟩ := hhost.exists_hostStr
    have happ := h.normalizeClientConfig_uri hcrate hparse hread
    have hmobile := importShareUri_uri h hcrate hparse hread
    have hsame : ({ config.settings.normalized with
        server := hostPort read port, auth := restoredAuth config.auth } : Settings) =
        config.settings.normalized ↔ host.isPlain ∧ ∀ username, splitOnce ':' config.auth ≠ some (username, []) := by
      rw [← hostPort_eq_iff hhost hread, ← restoredAuth_eq_iff, ← h.server]
      simp only [Settings.normalized, ClientConfig.settings, Settings.mk.injEq, and_true]
    rw [← hsame]
    constructor
    · rintro ⟨text, htext, hback, -⟩
      obtain rfl := Except.ok.inj (hbuild.symm.trans htext)
      rw [happ] at hback
      exact Except.ok.inj hback
    · intro hback
      rw [hback] at happ hmobile
      exact ⟨_, hbuild, happ, hmobile⟩

end

def sampleHost : HostName where
  text := "example.com".toList
  ne_nil := by decide
  chars := Url.hostChars_of_all (by decide)

def sampleConfig : ClientConfig where
  server := "example.com:443".toList
  auth := "jörg:p@ss:word".toList
  obfs := { type := " Salamander".toList, salamanderPassword := "a b&c".toList }
  tls := { sni := "front.example".toList, insecure := true, pinSha256 := "AB:cd-EF".toList }

theorem share_roundtrip_sample :
    Shareable (.name sampleHost) 443 sampleConfig ∧ ∃ uri, buildShareUri UrlStandard.crate sampleConfig = .ok uri ∧
      (normalizeClientConfig UrlStandard.crate { server := uri }).map ClientConfig.settings =
        .ok sampleConfig.settings.normalized ∧
      (importShareUri UrlStandard.crate uri).map ImportedForm.settings = .ok sampleConfig.settings.normalized := by
  have hshareable : Shareable (.name sampleHost) 443 sampleConfig :=
    { server := by decide, obfs := by decide, sni := .inr (by decide) }
  refine ⟨hshareable, (share_roundtrip_iff (UrlStandard.lawful (by decide) (by decide)) hshareable).mpr ⟨rfl, ?_⟩⟩
  have hsplit : splitOnce ':' sampleConfig.auth = some ("jörg".toList, "p@ss:word".toList) := by decide
  rw [hsplit]
  rintro username ⟨⟩

/-- The brackets of an IPv6 address are doubled, and the colon of an empty password is dropped. -/
theorem share_loses_brackets_and_colon :
    UrlStandard.crate.Lawful "hysteria2".toList ∧
      buildShareUri UrlStandard.crate { server := "[::1]:443".toList } = .ok "hysteria2://[::1]:443/".toList ∧
      (normalizeClientConfig UrlStandard.crate { server := "hysteria2://[::1]:443/".toList }).map ClientConfig.server =
        .ok "[[::1]]:443".toList ∧
      (importShareUri UrlStandard.crate "hysteria2://[::1]:443/".toList).map ImportedForm.server =
        .ok "[[::1]]:443".toList ∧
      buildShareUri UrlStandard.crate { server := "example.com:443".toList, auth := "user:".toList } =
        .ok "hysteria2://user:@example.com:443/".toList ∧
      (normalizeClientConfig UrlStandard.crate { server := "hysteria2://user:@example.com:443/".toList }).map
          ClientConfig.auth = .ok "user".toList ∧
      (importShareUri UrlStandard.crate "hysteria2://user:@example.com:443/".toList).map ImportedForm.auth =
        .ok "user".toList :=
  ⟨UrlStandard.lawful (by decide) (by decide), by decide +kernel⟩

end Hysteria.Mobile
