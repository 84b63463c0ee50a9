import Hysteria.Core.Errors
import Hysteria.Core.TcpFrames
import Hysteria.Lib.PartialMap
import Hysteria.Lib.Text

/-! The headers of the authentication exchange, `protocol/auth.rs`, over the header values and header maps of
the `http` crate. -/
namespace Hysteria.Core
open Lib

/-- The `http` crate, as far as it is called. -/
structure HttpCrate where
  HeaderValue : Type
  HeaderMap : Type
  fromStr : Text → Option HeaderValue
  toStr : HeaderValue → Option Text
  new : HeaderMap
  get : HeaderMap → String → Option HeaderValue
  insert : HeaderMap → String → HeaderValue → HeaderMap

def isAsciiControl (c : Char) : Bool := c.toNat < 32 || c.toNat = 127

def isAscii (c : Char) : Bool := c.toNat < 128

/-- What is known of the crate. Names are compared as they are: those of the headers here are in lower case. -/
structure HttpCrate.Lawful (http : HttpCrate) : Prop where
  fromStr_accepts : ∀ src : Text, (∀ c ∈ src, ¬ isAsciiControl c) → (http.fromStr src).isSome
  fromStr_refuses : ∀ src value, http.fromStr src = some value → ∀ c ∈ src, ¬ isAsciiControl c ∨ c = '\t'
  toStr_visible : ∀ src value text, http.fromStr src = some value → http.toStr value = some text →
    text = src ∧ ∀ c ∈ src, isAscii c ∧ (¬ isAsciiControl c ∨ c = '\t')
  toStr_accepts : ∀ src value, http.fromStr src = some value →
    (∀ c ∈ src, isAscii c ∧ (¬ isAsciiControl c ∨ c = '\t')) → (http.toStr value).isSome
  get_insert : ∀ headers name value name',
    http.get (http.insert headers name value) name' = if name' = name then some value else http.get headers name'

def requestHeaderAuth : String := "hysteria-auth"
def responseHeaderUdpEnabled : String := "hysteria-udp"
def commonHeaderCcRx : String := "hysteria-cc-rx"
def commonHeaderPadding : String := "hysteria-padding"

structure AuthRequest where
  auth : Text
  rx : UInt64
deriving DecidableEq, Repr

structure AuthResponse where
  udpEnabled : Bool
  rx : UInt64
  rxAuto : Bool
deriving DecidableEq, Repr

def authRequestPadding : PaddingRange := ⟨256, 2048⟩
def authResponsePadding : PaddingRange := ⟨256, 2048⟩

/-- The characters of the distribution `Alphanumeric`. -/
def isAlphanumeric (c : Char) : Bool :=
  let n := c.toNat
  (65 ≤ n && n ≤ 90) || (97 ≤ n && n ≤ 122) || (48 ≤ n && n ≤ 57)

/-- `sample` may return this padding. -/
def PaddingRange.Samples (range : PaddingRange) (padding : Text) : Prop :=
  range.min ≤ padding.length ∧ padding.length < range.max ∧ padding.all isAlphanumeric

instance (range : PaddingRange) (padding : Text) : Decidable (range.Samples padding) :=
  inferInstanceAs (Decidable (_ ∧ _ ∧ _))

/-- `u64::to_string` -/
def decimal (n : UInt64) : Text := Nat.toDigits 10 n.toNat

def parseU64 (text : Text) : Option UInt64 := (fromStrRadix 64 10 text).map UInt64.ofNat

def parseBool (text : Text) : Option Bool :=
  if text = "true".toList then some true else if text = "false".toList then some false else none

section
variable {http : HttpCrate}

def headerValue (http : HttpCrate) (src : Text) : Except ProtocolError http.HeaderValue :=
  match http.fromStr src with
  | some value => .ok value
  | none => .error .invalidHeaderValue

/-- `headers.get(name).and_then(|value| value.to_str().ok())` -/
def headerText (headers : http.HeaderMap) (name : String) : Option Text :=
  (http.get headers name).bind http.toStr

def authRequestFromHeaders (headers : http.HeaderMap) : AuthRequest where
  auth := (headerText headers requestHeaderAuth).getD []
  rx := ((headerText headers commonHeaderCcRx).bind parseU64).getD 0

/-- With the padding that was drawn. -/
def authRequestToHeaders (padding : Text) (headers : http.HeaderMap) (request : AuthRequest) :
    Except ProtocolError http.HeaderMap := do
  let headers := http.insert headers requestHeaderAuth (← headerValue http request.auth)
  let headers := http.insert headers commonHeaderCcRx (← headerValue http (decimal request.rx))
  let headers := http.insert headers commonHeaderPadding (← headerValue http padding)
  return headers

def authResponseFromHeaders (headers : http.HeaderMap) : AuthResponse :=
  let udpEnabled := ((headerText headers responseHeaderUdpEnabled).bind parseBool).getD false
  let ccRx := (headerText headers commonHeaderCcRx).getD []
  if ccRx = "auto".toList then { udpEnabled, rx := 0, rxAuto := true }
  else { udpEnabled, rx := (parseU64 ccRx).getD 0, rxAuto := false }

def authResponseToHeaders (padding : Text) (headers : http.HeaderMap) (response : AuthResponse) :
    Except ProtocolError http.HeaderMap := do
  let udpEnabled := if response.udpEnabled then "true".toList else "false".toList
  let headers := http.insert headers responseHeaderUdpEnabled (← headerValue http udpEnabled)
  let rxValue := if response.rxAuto then "auto".toList else decimal response.rx
  let headers := http.insert headers commonHeaderCcRx (← headerValue http rxValue)
  let headers := http.insert headers commonHeaderPadding (← headerValue http padding)
  return headers

end

def Plain (text : Text) : Prop := ∀ c ∈ text, 32 ≤ c.toNat ∧ c.toNat < 127

theorem Plain.notControl {text : Text} (h : Plain text) : ∀ c ∈ text, ¬ isAsciiControl c := by
  intro c hc
  have := h c hc
  simp only [isAsciiControl, Bool.or_eq_true, decide_eq_true_eq]
  omega

theorem Plain.isAscii {text : Text} (h : Plain text) : text.all isAscii := by
  rw [List.all_eq_true]
  intro c hc
  have := h c hc
  exact decide_eq_true (by omega)

theorem plain_decimal (n : UInt64) : Plain (decimal n) := by
  intro c hc
  have hdigit := toDigit_range ((numeral_digits (numeral_toDigits n.toNat)).2 c hc)
  omega

@[simp] theorem parseU64_decimal (n : UInt64) : parseU64 (decimal n) = some n := by
  have hparse : fromStrRadix 64 10 (decimal n) = some n.toNat :=
    fromStrRadix_of_numeral (by decide) (numeral_toDigits n.toNat) n.toNat_lt
  rw [parseU64, hparse, Option.map_some, UInt64.ofNat_toNat]

theorem plain_of_isAlphanumeric {text : Text} (h : text.all isAlphanumeric) : Plain text := by
  intro c hc
  have halnum := List.all_eq_true.mp h c hc
  simp only [isAlphanumeric, Bool.or_eq_true, Bool.and_eq_true, decide_eq_true_eq] at halnum
  omega

section
variable {http : HttpCrate}

theorem HttpCrate.Lawful.toStr_of_fromStr (hhttp : http.Lawful) {src : Text} {value : http.HeaderValue}
    (h : http.fromStr src = some value) : http.toStr value = if src.all isAscii then some src else none := by
  split
  case isTrue hascii =>
    have hvisible : ∀ c ∈ src, isAscii c ∧ (¬ isAsciiControl c ∨ c = '\t') :=
      fun c hc => ⟨List.all_eq_true.mp hascii c hc, hhttp.fromStr_refuses src value h c hc⟩
    obtain ⟨text, htext⟩ := Option.isSome_iff_exists.mp (hhttp.toStr_accepts src value h hvisible)
    rw [htext, (hhttp.toStr_visible src value text h htext).1]
  case isFalse hascii =>
    rw [Option.eq_none_iff_forall_ne_some]
    intro text htext
    exact hascii (List.all_eq_true.mpr fun c hc => ((hhttp.toStr_visible src value text h htext).2 c hc).1)

theorem HttpCrate.Lawful.headerText_inserted (hhttp : http.Lawful) (headers : http.HeaderMap) (name : String)
    (hname : name ≠ commonHeaderCcRx) (hname' : name ≠ commonHeaderPadding) (first second third : http.HeaderValue) :
    let written := http.insert (http.insert (http.insert headers name first) commonHeaderCcRx second)
      commonHeaderPadding third
    headerText written name = http.toStr first ∧ headerText written commonHeaderCcRx = http.toStr second := by
  have hrx : commonHeaderCcRx ≠ commonHeaderPadding := by decide
  simp only [headerText, hhttp.get_insert, if_neg hname, if_neg hname', if_neg hrx, if_true, Option.bind_some,
    and_self]

theorem headerValue_ok_iff {src : Text} {value : http.HeaderValue} :
    headerValue http src = .ok value ↔ http.fromStr src = some value := by
  unfold headerValue
  split <;> simp_all

theorem HttpCrate.Lawful.headerValue_of_plain (hhttp : http.Lawful) {text : Text} (h : Plain text) :
    ∃ value, headerValue http text = .ok value ∧ http.toStr value = some text := by
  obtain ⟨value, hvalue⟩ := Option.isSome_iff_exists.mp (hhttp.fromStr_accepts text h.notControl)
  exact ⟨value, headerValue_ok_iff.mpr hvalue, by rw [hhttp.toStr_of_fromStr hvalue, if_pos h.isAscii]⟩

/-- What the server reads of a credential: nothing, if it is not ASCII. -/
def receivedAuth (auth : Text) : Text := if auth.all isAscii then auth else []

theorem HttpCrate.Lawful.authRequestFromHeaders_eq (hhttp : http.Lawful) {padding : Text}
    {headers written : http.HeaderMap} {request : AuthRequest}
    (h : authRequestToHeaders padding headers request = .ok written) :
    authRequestFromHeaders written = { auth := receivedAuth request.auth, rx := request.rx } := by
  obtain ⟨rx, hrx, hread⟩ := hhttp.headerValue_of_plain (plain_decimal request.rx)
  rw [authRequestToHeaders, hrx] at h
  cases hauth : headerValue http request.auth with
  | error => simp [hauth, bind, Except.bind] at h
  | ok auth =>
    cases hpadding : headerValue http padding with
    | error => simp [hauth, hpadding, bind, Except.bind] at h
    | ok pad =>
      simp only [hauth, hpadding, bind, Except.bind, pure, Except.pure, Except.ok.injEq] at h
      subst h
      obtain ⟨hfirst, hsecond⟩ := hhttp.headerText_inserted headers requestHeaderAuth (by decide) (by decide)
        auth rx pad
      rw [authRequestFromHeaders, hfirst, hsecond, hhttp.toStr_of_fromStr (headerValue_ok_iff.mp hauth), hread,
        Option.bind_some, parseU64_decimal, Option.getD_some, receivedAuth]
      split <;> rfl

theorem HttpCrate.Lawful.exists_authRequestToHeaders (hhttp : http.Lawful) {padding : Text} (hpadding : Plain padding)
    (headers : http.HeaderMap) {request : AuthRequest} (hauth : (http.fromStr request.auth).isSome) :
    ∃ written, authRequestToHeaders padding headers request = .ok written := by
  obtain ⟨auth, hauth⟩ := Option.isSome_iff_exists.mp hauth
  obtain ⟨rx, hrx, -⟩ := hhttp.headerValue_of_plain (plain_decimal request.rx)
  obtain ⟨pad, hpad, -⟩ := hhttp.headerValue_of_plain hpadding
  simp only [authRequestToHeaders, headerValue_ok_iff.mpr hauth, hrx, hpad, bind, Except.bind, pure, Except.pure,
    Except.ok.injEq, exists_eq']

theorem HttpCrate.Lawful.authRequestFromHeaders_eq_iff (hhttp : http.Lawful) {padding : Text}
    {headers written : http.HeaderMap} {request : AuthRequest}
    (h : authRequestToHeaders padding headers request = .ok written) :
    authRequestFromHeaders written = request ↔ request.auth.all isAscii := by
  rw [hhttp.authRequestFromHeaders_eq h, AuthRequest.mk.injEq, and_iff_left rfl, receivedAuth]
  split_ifs with hascii
  · exact iff_of_true rfl hascii
  · refine iff_of_false (fun hempty => hascii ?_) hascii
    rw [← hempty]
    rfl

theorem parseU64_auto : parseU64 "auto".toList = none := by decide

theorem decimal_ne_auto (n : UInt64) : decimal n ≠ "auto".toList := by
  intro h
  have := parseU64_decimal n
  rw [h, parseU64_auto] at this
  cases this

theorem HttpCrate.Lawful.authResponseFromHeaders_eq (hhttp : http.Lawful) {padding : Text} (hpadding : Plain padding)
    (headers : http.HeaderMap) (response : AuthResponse) :
    ∃ written, authResponseToHeaders padding headers response = .ok written ∧
      authResponseFromHeaders written = { response with rx := if response.rxAuto then 0 else response.rx } := by
  have hudp : Plain (if response.udpEnabled then "true".toList else "false".toList) := by
    cases response.udpEnabled <;> exact plain_of_isAlphanumeric (by decide)
  have hrx : Plain (if response.rxAuto then "auto".toList else decimal response.rx) := by
    split
    · exact plain_of_isAlphanumeric (by decide)
    · exact plain_decimal response.rx
  have hparse : parseBool (if response.udpEnabled then "true".toList else "false".toList) =
      some response.udpEnabled := by
    cases response.udpEnabled <;> decide
  obtain ⟨udp, hudpValue, hudpText⟩ := hhttp.headerValue_of_plain hudp
  obtain ⟨rx, hrxValue, hrxText⟩ := hhttp.headerValue_of_plain hrx
  obtain ⟨pad, hpad, -⟩ := hhttp.headerValue_of_plain hpadding
  refine ⟨_, by simp only [authResponseToHeaders, hudpValue, hrxValue, hpad, bind, Except.bind, pure, Except.pure]; rfl,
    ?_⟩
  obtain ⟨hfirst, hsecond⟩ := hhttp.headerText_inserted headers responseHeaderUdpEnabled (by decide) (by decide)
    udp rx pad
  rw [authResponseFromHeaders, hfirst, hsecond, hudpText, hrxText, Option.bind_some, hparse, Option.getD_some,
    Option.getD_some]
  cases hauto : response.rxAuto with
  | true => rfl
  | false =>
    simp only [Bool.false_eq_true, if_false, if_neg (decimal_ne_auto response.rx), parseU64_decimal,
      Option.getD_some]

/-- A request that could be written is read back exactly if its credential is ASCII, and a
response always is, up to the limit that goes with `rx_auto`. -/
theorem auth_headers_roundtrip (hhttp : http.Lawful) (headers : http.HeaderMap) :
    (∀ padding request written, authRequestToHeaders padding headers request = .ok written →
      (authRequestFromHeaders written = request ↔ request.auth.all isAscii)) ∧
    ∀ padding response, authResponsePadding.Samples padding →
      ∃ written, authResponseToHeaders padding headers response = .ok written ∧
        authResponseFromHeaders written =
          { response with rx := if response.rxAuto then 0 else response.rx } := by
  constructor
  · intro padding request written h
    exact hhttp.authRequestFromHeaders_eq_iff h
  · intro padding response hpadding
    exact hhttp.authResponseFromHeaders_eq (plain_of_isAlphanumeric hpadding.2.2) headers response

end

namespace HeaderBytes

def isValid (b : UInt8) : Bool := (b.toNat ≥ 32 && b.toNat ≠ 127) || b.toNat = 9

def isVisibleAscii (b : UInt8) : Bool := (b.toNat ≥ 32 && b.toNat < 127) || b.toNat = 9

def fromStr (src : Text) : Option (List UInt8) :=
  if (utf8 src).all isValid then some (utf8 src) else none

def toStr (value : List UInt8) : Option Text :=
  if value.all isVisibleAscii then fromUtf8 value else none

def crate : HttpCrate where
  HeaderValue := List UInt8
  HeaderMap := PartialMap String (List UInt8)
  fromStr := fromStr
  toStr := toStr
  new := .empty
  get := PartialMap.get
  insert := PartialMap.insert

theorem isValid_iff {c : Char} {b : UInt8} (h : b ∈ String.utf8EncodeChar c) :
    isValid b ↔ ¬ isAsciiControl c ∨ c = '\t' := by
  have htab : c = '\t' ↔ c.toNat = 9 := Char.toNat_inj.symm
  rw [htab]
  simp only [isValid, isAsciiControl, ge_iff_le, ne_eq, Bool.or_eq_true, Bool.and_eq_true, decide_eq_true_eq]
  by_cases hlt : c.toNat < 128
  · rw [byte_of_mem_utf8EncodeChar h hlt]
    omega
  · have hb : ¬ b.toNat < 128 := fun hb => hlt (toNat_of_mem_utf8EncodeChar h hb ▸ hb)
    omega

theorem isVisibleAscii_iff {c : Char} {b : UInt8} (h : b ∈ String.utf8EncodeChar c) :
    isVisibleAscii b ↔ isAscii c ∧ (¬ isAsciiControl c ∨ c = '\t') := by
  have htab : c = '\t' ↔ c.toNat = 9 := Char.toNat_inj.symm
  rw [htab]
  simp only [isVisibleAscii, isAscii, isAsciiControl, ge_iff_le, Bool.or_eq_true, Bool.and_eq_true,
    decide_eq_true_eq]
  by_cases hlt : c.toNat < 128
  · rw [byte_of_mem_utf8EncodeChar h hlt]
    omega
  · have hb : ¬ b.toNat < 128 := fun hb => hlt (toNat_of_mem_utf8EncodeChar h hb ▸ hb)
    omega

theorem all_utf8_iff {p : UInt8 → Bool} {q : Char → Prop}
    (h : ∀ c : Char, ∀ b ∈ String.utf8EncodeChar c, p b ↔ q c) (text : Text) : (utf8 text).all p ↔ ∀ c ∈ text, q c := by
  rw [List.all_eq_true]
  constructor
  · intro hall c hc
    obtain ⟨b, rest, hb⟩ := List.exists_cons_of_length_pos (l := String.utf8EncodeChar c)
      (by rw [String.length_utf8EncodeChar]; exact c.utf8Size_pos)
    have hmem : b ∈ String.utf8EncodeChar c := by simp [hb]
    exact (h c b hmem).mp (hall b (List.mem_flatMap.mpr ⟨c, hc, hmem⟩))
  · intro hall b hb
    obtain ⟨c, hc, hmem⟩ := List.mem_flatMap.mp hb
    exact (h c b hmem).mpr (hall c hc)

theorem fromStr_eq_some_iff {src : Text} {value : List UInt8} :
    fromStr src = some value ↔ (∀ c ∈ src, ¬ isAsciiControl c ∨ c = '\t') ∧ utf8 src = value := by
  rw [fromStr, Option.ite_none_right_eq_some, Option.some.injEq, all_utf8_iff fun _ _ => isValid_iff]

theorem toStr_utf8 (src : Text) :
    toStr (utf8 src) = some src ∧ (∀ c ∈ src, isAscii c ∧ (¬ isAsciiControl c ∨ c = '\t')) ∨
      toStr (utf8 src) = none ∧ ¬ ∀ c ∈ src, isAscii c ∧ (¬ isAsciiControl c ∨ c = '\t') := by
  rw [← all_utf8_iff fun _ _ => isVisibleAscii_iff, toStr]
  split
  case isTrue hall => exact .inl ⟨fromUtf8_utf8 src, hall⟩
  case isFalse hall => exact .inr ⟨rfl, hall⟩

theorem lawful : crate.Lawful where
  fromStr_accepts src h := Option.isSome_of_mem (fromStr_eq_some_iff.mpr ⟨fun c hc => .inl (h c hc), rfl⟩)
  fromStr_refuses _ _ h := (fromStr_eq_some_iff.mp h).1
  toStr_visible := by
    intro src value text hvalue htext
    obtain ⟨-, rfl⟩ := fromStr_eq_some_iff.mp hvalue
    rcases toStr_utf8 src with ⟨hread, hall⟩ | ⟨hread, -⟩
    · exact ⟨Option.some.inj (htext.symm.trans hread), hall⟩
    · exact absurd (htext.symm.trans hread) (Option.some_ne_none text)
  toStr_accepts := by
    intro src value hvalue hall
    obtain ⟨-, rfl⟩ := fromStr_eq_some_iff.mp hvalue
    rcases toStr_utf8 src with ⟨hread, -⟩ | ⟨-, hnone⟩
    · exact Option.isSome_of_mem hread
    · exact absurd hall hnone
  get_insert _ _ _ _ := PartialMap.get_insert ..

end HeaderBytes

def samplePadding : Text := List.replicate 256 'a'

theorem samplePadding_samples : authResponsePadding.Samples samplePadding := by decide +kernel

theorem auth_headers_roundtrip_sample :
    ∃ written written' : HeaderBytes.crate.HeaderMap,
      authRequestToHeaders samplePadding HeaderBytes.crate.new ⟨"secret".toList, 1000⟩ = .ok written ∧
      authRequestFromHeaders written = ⟨"secret".toList, 1000⟩ ∧
      authResponseToHeaders samplePadding HeaderBytes.crate.new ⟨true, 5, true⟩ = .ok written' ∧
      authResponseFromHeaders written' = ⟨true, 0, true⟩ := by
  obtain ⟨hrequest, hresponse⟩ := auth_headers_roundtrip HeaderBytes.lawful HeaderBytes.crate.new
  obtain ⟨written, hwritten⟩ := @HttpCrate.Lawful.exists_authRequestToHeaders _ HeaderBytes.lawful _
    (plain_of_isAlphanumeric samplePadding_samples.2.2) HeaderBytes.crate.new ⟨"secret".toList, 1000⟩ (by decide)
  obtain ⟨written', hwritten', hread⟩ := hresponse samplePadding ⟨true, 5, true⟩ samplePadding_samples
  exact ⟨written, written', hwritten, (hrequest _ _ _ hwritten).mpr (by decide), hwritten', hread⟩

/-- A credential that is not ASCII is sent, and read as none at all, whatever the crate. -/
theorem auth_not_ascii_lost :
    HeaderBytes.crate.Lawful ∧ ∀ http : HttpCrate, http.Lawful →
      ∃ written, authRequestToHeaders samplePadding http.new ⟨['é'], 0⟩ = .ok written ∧
        authRequestFromHeaders written = ⟨[], 0⟩ := by
  refine ⟨HeaderBytes.lawful, fun http hhttp => ?_⟩
  have haccepted : (http.fromStr ['é']).isSome := by
    apply hhttp.fromStr_accepts
    intro c hc
    rw [List.mem_singleton.mp hc]
    decide
  obtain ⟨written, hwritten⟩ := @HttpCrate.Lawful.exists_authRequestToHeaders _ hhttp _
    (plain_of_isAlphanumeric samplePadding_samples.2.2) http.new ⟨['é'], 0⟩ haccepted
  exact ⟨written, hwritten, hhttp.authRequestFromHeaders_eq hwritten⟩

end Hysteria.Core
