import Mathlib.Data.List.Sort
import Hysteria.Lib.Exec
import Hysteria.Lib.PartialMap
import Hysteria.Lib.Url

/-! A client configuration shared as a URI, `share.rs`, and one taken from a URI, `config.rs`. -/
namespace Hysteria.App
open Lib

/-- An `anyhow` error as the messages of its chain, the outermost first, without those of the
crates that are called. -/
abbrev Chain := List String

def context (message : String) : Except Chain α → Except Chain α := Except.mapError (message :: ·)

structure ObfsConfig where
  type : Text := []
  salamanderPassword : Text := []
deriving DecidableEq, Repr

structure TlsConfig where
  sni : Text := []
  insecure : Bool := false
  pinSha256 : Text := []
deriving DecidableEq, Repr

structure ClientConfig where
  server : Text := []
  auth : Text := []
  obfs : ObfsConfig := {}
  tls : TlsConfig := {}
deriving DecidableEq, Repr

def toAsciiLowercase (text : Text) : Text := text.map Char.toLower

def normalizeCertHash (hash : Text) : Text :=
  (toAsciiLowercase (trim hash)).filter fun c => c ≠ ':' ∧ c ≠ '-'

def parseBoolLike (value : Text) : Option Bool :=
  let value := toAsciiLowercase (trim value)
  if value = "1".toList ∨ value = "true".toList ∨ value = "t".toList ∨ value = "yes".toList ∨
      value = "y".toList then some true
  else if value = "0".toList ∨ value = "false".toList ∨ value = "f".toList ∨ value = "no".toList ∨
      value = "n".toList then some false
  else none

/-- Negation of `should_escape_userinfo` -/
def keepsUserinfo (b : UInt8) : Bool :=
  (97 ≤ b && b ≤ 122) || (65 ≤ b && b ≤ 90) || (48 ≤ b && b ≤ 57) || b = 45 || b = 95 || b = 46 ||
    b = 126 || b = 36 || b = 38 || b = 43 || b = 44 || b = 59 || b = 61

def escapeUserinfoComponent (input : Text) : Text := percentEncodeText keepsUserinfo input

def encodeAuth (auth : Text) : Text :=
  match splitOnce ':' auth with
  | some (username, password) => escapeUserinfoComponent username ++ ':' :: escapeUserinfoComponent password
  | none => escapeUserinfoComponent auth

/-- The decoder of either program, with its texts for a cut-off escape, a digit that is none
and bytes that are not UTF-8. -/
def decodeUserinfo (truncated badDigit notUtf8 : String) (input : Text) : Except Chain Text :=
  if (37 : UInt8) ∈ utf8 input then do
    let decoded ← percentDecode [truncated] [badDigit] (utf8 input)
    match fromUtf8 decoded with
    | some text => .ok text
    | none => .error [notUtf8]
  else .ok input

def decodeUserinfoComponent : Text → Except Chain Text :=
  decodeUserinfo "invalid percent-encoding in client URI auth" "invalid percent-encoding in client URI auth"
    "client URI auth is not valid UTF-8"

def hostPort (host : Text) (port : UInt16) : Text :=
  if ':' ∈ host then '[' :: (host ++ [']', ':'] ++ Nat.toDigits 10 port.toNat)
  else host ++ ':' :: Nat.toDigits 10 port.toNat

def joinAuth (username : Text) : Option Text → Text
  | some password => username ++ ':' :: password
  | none => username

def ClientConfig.withAuth (config : ClientConfig) (uri : Url) : Except Chain ClientConfig :=
  if uri.username ≠ [] ∨ uri.password.isSome then do
    let username ← context "failed to decode auth username from client URI"
      (decodeUserinfoComponent uri.username)
    let password ← uri.password.mapM fun password =>
      context "failed to decode auth password from client URI" (decodeUserinfoComponent password)
    return { config with auth := joinAuth username password }
  else .ok config

def ClientConfig.withQuery (config : ClientConfig) (query : PartialMap Text Text) : ClientConfig :=
  let obfs :=
    match query.get "obfs".toList with
    | some type =>
      { type
        salamanderPassword :=
          if eqIgnoreAsciiCase type "salamander" then (query.get "obfs-password".toList).getD []
          else config.obfs.salamanderPassword }
    | none => config.obfs
  { config with
    obfs
    tls.sni := (query.get "sni".toList).getD config.tls.sni
    tls.insecure := ((query.get "insecure".toList).bind parseBoolLike).getD config.tls.insecure
    tls.pinSha256 := (query.get "pinSHA256".toList).getD config.tls.pinSha256 }

def normalizeClientConfig (crate : UrlCrate) (config : ClientConfig) : Except Chain ClientConfig :=
  let server := trim config.server
  if "hy2://".toList.isPrefixOf server || "hysteria2://".toList.isPrefixOf server then
    match crate.parse server with
    | none => .error ["failed to parse client server URI"]
    | some uri =>
      if uri.scheme = "hy2".toList ∨ uri.scheme = "hysteria2".toList then
        match uri.hostStr with
        | none => .error ["client URI is missing a host"]
        | some host => do
          let server :=
            match uri.port with
            | some port => hostPort host port
            | none => host
          let config ← { config with server }.withAuth uri
          return config.withQuery (PartialMap.ofPairs uri.queryPairs)
      else .ok config
  else .ok config

def ClientConfig.obfsPairs (config : ClientConfig) : Except Chain (List (String × Text)) :=
  let type := toAsciiLowercase (trim config.obfs.type)
  if type = [] ∨ type = "plain".toList then .ok []
  else if type = "salamander".toList then
    .ok [("obfs", "salamander".toList), ("obfs-password", config.obfs.salamanderPassword)]
  else .error ["unsupported obfs.type " ++ String.ofList type]

def TlsConfig.pairs (tls : TlsConfig) : List (String × Text) :=
  (if trim tls.sni ≠ [] then [("sni", tls.sni)] else []) ++
  (if tls.insecure then [("insecure", "1".toList)] else []) ++
  (if trim tls.pinSha256 ≠ [] then [("pinSHA256", normalizeCertHash tls.pinSha256)] else [])

def sortedQuery (pairs : List (String × Text)) : List (Text × Text) :=
  (pairs.insertionSort fun left right => left.1 ≤ right.1).map fun pair => (pair.1.toList, pair.2)

def buildShareUri (crate : UrlCrate) (config : ClientConfig) : Except Chain Text := do
  let config ← normalizeClientConfig crate config
  let server := trim config.server
  if server = [] then
    throw ["server must not be empty"]
  let obfs ← config.obfsPairs
  let query := crate.formSerialize (sortedQuery (obfs ++ config.tls.pairs))
  return "hysteria2://".toList ++ (if config.auth = [] then [] else encodeAuth config.auth ++ ['@']) ++
    server ++ '/' :: (if query = [] then [] else '?' :: query)

theorem decodeUserinfo_eq_ok_iff {truncated badDigit notUtf8 : String} {raw text : Text} :
    decodeUserinfo truncated badDigit notUtf8 raw = .ok text ↔ Unescapes (utf8 raw) (utf8 text) := by
  rw [decodeUserinfo]
  split
  case isTrue =>
    rw [bind_eq_ok]
    constructor
    · rintro ⟨bytes, hbytes, htext⟩
      cases hdecoded : fromUtf8 bytes with
      | none => simp [hdecoded] at htext
      | some decoded =>
        simp only [hdecoded, Except.ok.injEq] at htext
        rw [← htext, fromUtf8_eq_some_iff.mp hdecoded]
        exact percentDecode_eq_ok_iff.mp hbytes
    · intro h
      exact ⟨utf8 text, h.percentDecode, by simp only [fromUtf8_utf8]⟩
  case isFalse hpercent =>
    -- without a percent sign the bytes stand for themselves
    have hraw := unescapes_of_notMem hpercent
    constructor
    · intro h
      exact Except.ok.inj h ▸ hraw
    · intro h
      rw [utf8_injective (hraw.unique h)]

theorem toNat_lt_of_keepsUserinfo : ∀ b, keepsUserinfo b → b.toNat < 128 := forall_byte (by decide +kernel)

theorem unescapes_escapeUserinfoComponent (text : Text) :
    Unescapes (utf8 (escapeUserinfoComponent text)) (utf8 text) := by
  rw [escapeUserinfoComponent, utf8_percentEncodeText toNat_lt_of_keepsUserinfo]
  exact unescapes_percentEncode (by decide) _

theorem unescapes_of_readsComponent {text read : Text} (h : Url.ReadsComponent (escapeUserinfoComponent text) read) :
    Unescapes (utf8 read) (utf8 text) :=
  h _ (unescapes_escapeUserinfoComponent text)

theorem mem_escapeUserinfoComponent {text : Text} :
    ∀ c ∈ escapeUserinfoComponent text, isPrintable c && c ≠ '@' && !Url.endsAuthority c && c ≠ ':' :=
  forall_mem_asciiText (forall_byte (by decide +kernel)) _

theorem mem_encodeAuth {auth : Text} : ∀ c ∈ encodeAuth auth, isPrintable c ∧ c ≠ '@' ∧ ¬ Url.endsAuthority c := by
  have hescaped (text : Text) :
      ∀ c ∈ escapeUserinfoComponent text, isPrintable c ∧ c ≠ '@' ∧ ¬ Url.endsAuthority c := by
    intro c hc
    have := mem_escapeUserinfoComponent c hc
    simp only [Bool.and_eq_true, Bool.not_eq_true', decide_eq_true_iff] at this
    exact ⟨this.1.1.1, this.1.1.2, by simp [this.1.2]⟩
  rw [encodeAuth]
  split
  · exact List.forall_mem_append.mpr ⟨hescaped _, List.forall_mem_cons.mpr ⟨by decide, hescaped _⟩⟩
  · exact hescaped _

theorem notMem_escapeUserinfoComponent (text : Text) : ':' ∉ escapeUserinfoComponent text := by
  intro h
  have := mem_escapeUserinfoComponent ':' h
  revert this
  decide

def sharedUserinfo (auth : Text) : Option Text := if auth = [] then none else some (encodeAuth auth)

/-- The auth string that comes back: a colon with nothing behind it is lost. -/
def restoredAuth (auth : Text) : Text :=
  match splitOnce ':' auth with
  | some (username, []) => username
  | _ => auth

theorem joinAuth_of_reads {uri : Url} {auth : Text} (h : uri.ReadsUserinfo (sharedUserinfo auth)) :
    ∃ username password, Unescapes (utf8 uri.username) (utf8 username) ∧
      Option.Rel (fun read text => Unescapes (utf8 read) (utf8 text)) uri.password password ∧
      joinAuth username password = restoredAuth auth := by
  rw [sharedUserinfo] at h
  split at h
  case isTrue hnil =>
    obtain ⟨husername, hpassword⟩ := h
    rw [husername, hpassword, hnil]
    exact ⟨[], none, .nil, .none, rfl⟩
  case isFalse =>
    cases hsplit : splitOnce ':' auth with
    | none =>
      have hcolon : splitOnce ':' (escapeUserinfoComponent auth) = none :=
        splitOnce_eq_none (notMem_escapeUserinfoComponent auth)
      simp only [encodeAuth, hsplit, Url.ReadsUserinfo, hcolon] at h
      obtain ⟨husername, hpassword⟩ := h
      rw [hpassword]
      refine ⟨auth, none, unescapes_of_readsComponent husername, .none, ?_⟩
      simp only [restoredAuth, hsplit, joinAuth]
    | some parts =>
      obtain ⟨username, password⟩ := parts
      have hcolon : splitOnce ':' (escapeUserinfoComponent username ++ ':' :: escapeUserinfoComponent password) =
          some (escapeUserinfoComponent username, escapeUserinfoComponent password) :=
        splitOnce_eq_some_iff.mpr ⟨rfl, notMem_escapeUserinfoComponent username⟩
      have hnil : escapeUserinfoComponent password = [] ↔ password = [] := percentEncodeText_eq_nil
      simp only [encodeAuth, hsplit, Url.ReadsUserinfo, hcolon, hnil] at h
      obtain ⟨husername, hpassword⟩ := h
      cases password with
      | nil =>
        rw [if_pos rfl] at hpassword
        rw [hpassword]
        refine ⟨username, none, unescapes_of_readsComponent husername, .none, ?_⟩
        simp only [restoredAuth, hsplit, joinAuth]
      | cons c password =>
        rw [if_neg (List.cons_ne_nil c password)] at hpassword
        obtain ⟨read, hread, hcomponent⟩ := hpassword
        rw [hread]
        refine ⟨username, some (c :: password), unescapes_of_readsComponent husername,
          .some (unescapes_of_readsComponent hcomponent), ?_⟩
        simp only [restoredAuth, hsplit, joinAuth]
        exact (splitOnce_eq_some_iff.mp hsplit).1.symm

theorem restoredAuth_eq_iff {auth : Text} :
    restoredAuth auth = auth ↔ ∀ username, splitOnce ':' auth ≠ some (username, []) := by
  rw [restoredAuth]
  split
  case h_1 username hsplit =>
    obtain ⟨hauth, -⟩ := splitOnce_eq_some_iff.mp hsplit
    constructor
    · intro h
      rw [h] at hauth
      simp at hauth
    · exact fun h => absurd hsplit (h username)
  case h_2 hother => exact ⟨fun _ => hother, fun _ => rfl⟩

/-- What sharing is to hand on; of the obfuscation it is the password in use. -/
structure Settings where
  server : Text
  auth : Text
  obfsPassword : Text
  sni : Text
  insecure : Bool
  pinSha256 : Text
deriving DecidableEq, Repr

def ClientConfig.settings (config : ClientConfig) : Settings where
  server := config.server
  auth := config.auth
  obfsPassword :=
    if toAsciiLowercase (trim config.obfs.type) = "salamander".toList then config.obfs.salamanderPassword else []
  sni := config.tls.sni
  insecure := config.tls.insecure
  pinSha256 := config.tls.pinSha256

def Settings.normalized (settings : Settings) : Settings :=
  { settings with pinSha256 := normalizeCertHash settings.pinSha256 }

/-- The configurations that there is a URI for. -/
structure Shareable (host : Host) (port : UInt16) (config : ClientConfig) : Prop where
  server : config.server = host.text ++ ':' :: Nat.toDigits 10 port.toNat
  obfs : toAsciiLowercase (trim config.obfs.type) ∈ ["".toList, "plain".toList, "salamander".toList]
  sni : config.tls.sni = [] ∨ trim config.tls.sni ≠ []

theorem get_sortedQuery {pairs : List (String × Text)} (hnodup : (pairs.map Prod.fst).Nodup) (key : String) :
    (PartialMap.ofPairs (sortedQuery pairs)).get key.toList = pairs.lookup key := by
  have hperm : (sortedQuery pairs).Perm (pairs.map fun pair => (pair.1.toList, pair.2)) :=
    (List.perm_insertionSort _ pairs).map _
  have hkeys : ((sortedQuery pairs).map Prod.fst).Perm ((pairs.map Prod.fst).map String.toList) := by
    have := hperm.map Prod.fst
    rwa [List.map_map] at this ⊢
  cases hlookup : pairs.lookup key with
  | none =>
    apply PartialMap.get_ofPairs_of_notMem
    rw [hkeys.mem_iff]
    rintro hmem
    obtain ⟨key', hkey', heq⟩ := List.mem_map.mp hmem
    obtain rfl : key' = key := String.toList_inj.mp heq
    obtain ⟨pair, hpair, rfl⟩ := List.mem_map.mp hkey'
    have := List.lookup_eq_none_iff.mp hlookup pair hpair
    simp at this
  | some value =>
    obtain ⟨before, after, hpairs, -⟩ := List.lookup_eq_some_iff.mp hlookup
    have hmem : (key, value) ∈ pairs := by simp [hpairs]
    apply PartialMap.get_ofPairs_of_mem
    · exact hkeys.nodup_iff.mpr (hnodup.map fun _ _ => String.toList_inj.mp)
    · exact hperm.mem_iff.mpr (List.mem_map.mpr ⟨(key, value), hmem, rfl⟩)

def ClientConfig.sharedPairs (config : ClientConfig) : List (String × Text) :=
  (if toAsciiLowercase (trim config.obfs.type) = "salamander".toList then
    [("obfs", "salamander".toList), ("obfs-password", config.obfs.salamanderPassword)] else []) ++
  config.tls.pairs

theorem ClientConfig.nodup_sharedPairs (config : ClientConfig) : (config.sharedPairs.map Prod.fst).Nodup := by
  rw [ClientConfig.sharedPairs, TlsConfig.pairs]
  split_ifs <;> simp

theorem normalizeCertHash_of_blank {hash : Text} (h : trim hash = []) : normalizeCertHash hash = [] := by
  rw [normalizeCertHash, h]
  rfl

def ClientConfig.sharedQuery (config : ClientConfig) : PartialMap Text Text :=
  PartialMap.ofPairs (sortedQuery config.sharedPairs)

theorem ClientConfig.get_sharedQuery (config : ClientConfig) :
    config.sharedQuery.get "obfs".toList =
        (if toAsciiLowercase (trim config.obfs.type) = "salamander".toList then some "salamander".toList else none) ∧
      config.sharedQuery.get "obfs-password".toList =
        (if toAsciiLowercase (trim config.obfs.type) = "salamander".toList
          then some config.obfs.salamanderPassword else none) ∧
      config.sharedQuery.get "sni".toList = (if trim config.tls.sni ≠ [] then some config.tls.sni else none) ∧
      config.sharedQuery.get "insecure".toList = (if config.tls.insecure then some "1".toList else none) ∧
      config.sharedQuery.get "pinSHA256".toList =
        (if trim config.tls.pinSha256 ≠ [] then some (normalizeCertHash config.tls.pinSha256) else none) := by
  simp only [ClientConfig.sharedQuery, get_sortedQuery config.nodup_sharedPairs]
  rw [ClientConfig.sharedPairs, TlsConfig.pairs]
  simp only [List.lookup_append, apply_ite (List.lookup _), List.lookup_cons, List.lookup_nil, String.reduceBEq,
    ite_self, Option.or_none, Option.none_or, and_self]

section
variable {crate : UrlCrate} {host : Host} {port : UInt16} {config : ClientConfig}

theorem Shareable.query (h : Shareable host port config) :
    (config.sharedQuery.get "sni".toList).getD [] = config.tls.sni ∧
      ((config.sharedQuery.get "insecure".toList).bind parseBoolLike).getD false = config.tls.insecure ∧
      (config.sharedQuery.get "pinSHA256".toList).getD [] = normalizeCertHash config.tls.pinSha256 := by
  have hone : parseBoolLike "1".toList = some true := by decide
  obtain ⟨-, -, hsni, hinsecure, hpin⟩ := config.get_sharedQuery
  rw [hsni, hinsecure, hpin]
  refine ⟨?_, ?_, ?_⟩
  · split
    case isTrue => rfl
    case isFalse hblank => exact (h.sni.resolve_right hblank).symm
  · cases config.tls.insecure with
    | false => rfl
    | true => rw [if_pos rfl, Option.bind_some, hone]; rfl
  · split
    case isTrue => rfl
    case isFalse hblank => exact (normalizeCertHash_of_blank (not_not.mp hblank)).symm

theorem Shareable.settings_withQuery (h : Shareable host port config) (server auth : Text) :
    (({ server, auth } : ClientConfig).withQuery config.sharedQuery).settings =
      { config.settings.normalized with server, auth } := by
  have hsalamander : toAsciiLowercase (trim "salamander".toList) = "salamander".toList := by decide
  obtain ⟨hsni, hinsecure, hpin⟩ := h.query
  obtain ⟨hobfs, hpassword, -⟩ := config.get_sharedQuery
  simp only [ClientConfig.withQuery, ClientConfig.settings, Settings.normalized, hsni, hinsecure, hpin, hobfs,
    hpassword]
  by_cases htype : toAsciiLowercase (trim config.obfs.type) = "salamander".toList
  · simp only [if_pos htype, if_pos hsalamander]
    rfl
  · simp only [if_neg htype]
    rfl

theorem Shareable.obfsPairs (h : Shareable host port config) :
    ∃ obfs, config.obfsPairs = .ok obfs ∧ obfs ++ config.tls.pairs = config.sharedPairs := by
  have htype := h.obfs
  simp only [List.mem_cons, List.not_mem_nil, or_false] at htype
  rw [ClientConfig.sharedPairs]
  simp only [ClientConfig.obfsPairs]
  rcases htype with htype | htype | htype
  · exact ⟨[], by rw [htype]; rfl, by rw [htype]; rfl⟩
  · exact ⟨[], by rw [htype]; rfl, by rw [htype]; rfl⟩
  · exact ⟨_, by rw [htype]; rfl, by rw [htype, if_pos rfl]⟩

theorem Shareable.mem_server (h : Shareable host port config) :
    ∀ c ∈ config.server, isVisible c ∧ ¬ Url.endsAuthority c := by
  rw [h.server]
  intro c hc
  obtain ⟨hvisible, -, hends⟩ := UrlParts.mem_hostPort host port c hc
  exact ⟨hvisible, hends⟩

theorem Shareable.normalizeClientConfig_eq (h : Shareable host port config) :
    normalizeClientConfig crate config = .ok config := by
  have htrim : trim config.server = config.server := trim_of_isVisible fun c hc => (h.mem_server c hc).1
  have hscheme (text : String) (hslash : '/' ∈ text.toList) : text.toList.isPrefixOf config.server = false := by
    rw [Bool.eq_false_iff, Ne, List.isPrefixOf_iff_prefix]
    intro hstart
    exact (h.mem_server '/' (hstart.subset hslash)).2 (by decide)
  rw [normalizeClientConfig]
  simp only [htrim, hscheme "hy2://" (by decide), hscheme "hysteria2://" (by decide)]
  rfl

theorem mem_sharedUserinfo {auth : Text} : ∀ text ∈ sharedUserinfo auth, ∀ c ∈ text,
    isPrintable c ∧ c ≠ '@' ∧ ¬ Url.endsAuthority c := by
  intro text htext c hc
  rw [sharedUserinfo] at htext
  split at htext
  case isTrue => cases htext
  case isFalse =>
    cases htext
    exact mem_encodeAuth c hc

def ClientConfig.parts (config : ClientConfig) (host : Host) (port : UInt16) : UrlParts where
  userinfo := sharedUserinfo config.auth
  host := host
  port := port
  pairs := sortedQuery config.sharedPairs
  userinfo_chars := mem_sharedUserinfo

theorem Shareable.buildShareUri_eq (h : Shareable host port config) :
    buildShareUri crate config = .ok (crate.assemble "hysteria2".toList (config.parts host port)) := by
  obtain ⟨obfs, hobfs, hpairs⟩ := h.obfsPairs
  have htrim : trim config.server = config.server := trim_of_isVisible fun c hc => (h.mem_server c hc).1
  have hne : config.server ≠ [] := by
    rw [h.server]
    simp
  have huserinfo : UrlParts.userinfoText (sharedUserinfo config.auth) =
      if config.auth = [] then [] else encodeAuth config.auth ++ ['@'] := by
    rw [sharedUserinfo]
    split <;> rfl
  rw [buildShareUri, h.normalizeClientConfig_eq]
  simp only [bind, Except.bind, htrim, if_neg hne, hobfs, hpairs, pure, Except.pure, ClientConfig.parts,
    UrlCrate.assemble, UrlParts.authority, huserinfo, ← h.server, List.append_assoc]
  rfl

theorem trim_assemble (hcrate : crate.Lawful "hysteria2".toList) (parts : UrlParts) :
    trim (crate.assemble "hysteria2".toList parts) = crate.assemble "hysteria2".toList parts :=
  trim_of_isVisible (UrlCrate.isVisible_assemble (List.all_eq_true.mp (by decide)) (hcrate.form_chars parts.pairs))

theorem decodeUserinfo_of_unescapes {truncated badDigit notUtf8 : String} {read text : Text}
    (h : Unescapes (utf8 read) (utf8 text)) : decodeUserinfo truncated badDigit notUtf8 read = .ok text :=
  decodeUserinfo_eq_ok_iff.mpr h

theorem eq_nil_of_unescapes {text : Text} (h : Unescapes (utf8 []) (utf8 text)) : text = [] := by
  by_contra hne
  exact utf8_ne_nil hne (h.unique .nil)

theorem ClientConfig.withAuth_eq (server : Text) {uri : Url} {username : Text} {password : Option Text}
    (husername : Unescapes (utf8 uri.username) (utf8 username))
    (hpassword : Option.Rel (fun read text => Unescapes (utf8 read) (utf8 text)) uri.password password) :
    ({ server } : ClientConfig).withAuth uri = .ok { server, auth := joinAuth username password } := by
  rw [ClientConfig.withAuth, decodeUserinfoComponent, decodeUserinfo_of_unescapes husername]
  generalize uri.password = read at hpassword
  cases hpassword with
  | none =>
    split
    case isTrue => rfl
    case isFalse hempty =>
      have hnil : uri.username = [] := by simpa using hempty
      rw [hnil] at husername
      rw [eq_nil_of_unescapes husername]
      rfl
  | some hdecoded =>
    rw [if_pos (.inr rfl), Option.mapM_some, decodeUserinfo_of_unescapes hdecoded]
    rfl

theorem normalizeClientConfig_of_parse {config : ClientConfig} {uri : Url} {host : Text} {port : UInt16}
    (hserver : "hysteria2://".toList.isPrefixOf (trim config.server))
    (hparse : crate.parse (trim config.server) = some uri) (hscheme : uri.scheme = "hysteria2".toList)
    (hhost : uri.hostStr = some host) (hport : uri.port = some port) :
    normalizeClientConfig crate config =
      ({ config with server := hostPort host port }.withAuth uri).map fun (config : ClientConfig) =>
        config.withQuery (PartialMap.ofPairs uri.queryPairs) := by
  rw [normalizeClientConfig]
  simp only [hserver, Bool.or_true, if_true, hparse]
  rw [if_pos (.inr hscheme)]
  simp only [hhost, hport]
  rfl

theorem isPrefixOf_assemble (parts : UrlParts) :
    "hysteria2://".toList.isPrefixOf (crate.assemble "hysteria2".toList parts) = true := by
  have hslashes : "hysteria2://".toList = "hysteria2".toList ++ [':', '/', '/'] := by decide
  rw [List.isPrefixOf_iff_prefix, UrlCrate.assemble, hslashes, List.prefix_append_right_inj]
  exact List.prefix_append [':', '/', '/'] _

theorem Shareable.normalizeClientConfig_uri (h : Shareable host port config)
    (hcrate : crate.Lawful "hysteria2".toList) {uri : Url} {read : Text}
    (hparse : crate.parse (crate.assemble "hysteria2".toList (config.parts host port)) = some uri)
    (hread : uri.hostStr = some read) :
    (normalizeClientConfig crate { server := crate.assemble "hysteria2".toList (config.parts host port) }).map
        ClientConfig.settings =
      .ok { config.settings.normalized with
        server := hostPort read port
        auth := restoredAuth config.auth } := by
  have hreads := hcrate.reads _ _ hparse
  obtain ⟨username, password, husername, hpassword, hauth⟩ := joinAuth_of_reads hreads.userinfo
  have htrim := trim_assemble hcrate (config.parts host port)
  have hserver := @isPrefixOf_assemble crate (config.parts host port)
  rw [← htrim] at hparse hserver
  rw [@normalizeClientConfig_of_parse crate { server := crate.assemble "hysteria2".toList (config.parts host port) }
      _ _ _ hserver hparse hreads.scheme_eq hread hreads.port_eq, ClientConfig.withAuth_eq _ husername hpassword, hauth, hreads.queryPairs_eq, Except.map, Except.map]
  exact congrArg Except.ok (h.settings_withQuery _ _)

end

end Hysteria.App
