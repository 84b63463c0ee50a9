import Hysteria.Core.Auth
import Mathlib.Data.ENat.Lattice

/-! The authentication exchange: the request of `Client::connect`, the answer of the server's
`handle_connection`, and the send limits both sides take from it. The HTTP layer hands the
headers over as they are. -/
namespace Hysteria.Core
open Lib

def negotiatedLimit (localLimit remoteLimit : UInt64) : UInt64 :=
  if localLimit = 0 ∧ remoteLimit = 0 then 0
  else if localLimit = 0 then remoteLimit
  else if remoteLimit = 0 then localLimit
  else min localLimit remoteLimit

def urlHost : String := "hysteria"
def urlPath : String := "/auth"
def statusAuthOk : Nat := 233
def statusNotFound : Nat := 404

structure HttpRequest (http : HttpCrate) where
  isPost : Bool
  path : String
  host : Option String
  headers : http.HeaderMap

structure HttpResponse (http : HttpCrate) where
  status : Nat
  headers : http.HeaderMap

structure ClientConfig where
  auth : Text
  bandwidthMaxTx : UInt64
  bandwidthMaxRx : UInt64

structure HandshakeInfo where
  udpEnabled : Bool
  tx : UInt64

/-- `authenticate` is the server's authenticator for the address of the client. -/
structure ServerState where
  bandwidthMaxTx : UInt64
  bandwidthMaxRx : UInt64
  ignoreClientBandwidth : Bool
  disableUdp : Bool
  authenticate : Text → UInt64 → Option Text

section
variable {http : HttpCrate}

namespace ClientConfig

def request (http : HttpCrate) (config : ClientConfig) (padding : Text) : Except CoreError (HttpRequest http) := do
  let headers ← (authRequestToHeaders padding http.new
    { auth := config.auth, rx := config.bandwidthMaxRx }).mapError .protocol
  return { isPost := true, path := urlPath, host := some urlHost, headers }

def accept (config : ClientConfig) (response : HttpResponse http) : Except CoreError HandshakeInfo :=
  if response.status ≠ statusAuthOk then .error (.authentication response.status)
  else
    let authResponse := authResponseFromHeaders response.headers
    let tx := if authResponse.rxAuto then 0 else negotiatedLimit config.bandwidthMaxTx authResponse.rx
    .ok { udpEnabled := authResponse.udpEnabled, tx }

end ClientConfig

/-- The answer, and the send limit if the connection goes on as an authenticated one. -/
def ServerState.handleConnection (state : ServerState) (padding : Text) (request : HttpRequest http) :
    Except CoreError (HttpResponse http × Option UInt64) :=
  let validAuthRequest := request.isPost && request.path = urlPath && request.host = some urlHost
  if !validAuthRequest then .ok (⟨statusNotFound, http.new⟩, none)
  else
    let authRequest := authRequestFromHeaders request.headers
    match state.authenticate authRequest.auth authRequest.rx with
    | none => .ok (⟨statusNotFound, http.new⟩, none)
    | some _ => do
      let actualTx := if state.ignoreClientBandwidth then 0 else negotiatedLimit state.bandwidthMaxTx authRequest.rx
      let headers ← (authResponseToHeaders padding http.new
        { udpEnabled := !state.disableUdp, rx := state.bandwidthMaxRx, rxAuto := state.ignoreClientBandwidth }).mapError
          .protocol
      return (⟨statusAuthOk, headers⟩, some actualTx)

def handshake (http : HttpCrate) (client : ClientConfig) (server : ServerState) (requestPadding responsePadding : Text) :
    Except CoreError (HandshakeInfo × Option UInt64) := do
  let request ← client.request http requestPadding
  let (response, actualTx) ← server.handleConnection responsePadding request
  let info ← client.accept response
  return (info, actualTx)

end

def limit (n : UInt64) : ENat := if n = 0 then ⊤ else n.toNat

/-- `sent` is the smaller of the sender's own limit and the receiver's. -/
structure Negotiated (own other sent : UInt64) : Prop where
  smaller : limit sent = min (limit own) (limit other)
  none : sent = 0 ↔ own = 0 ∧ other = 0
  bounded : other ≠ 0 → sent ≠ 0 ∧ sent ≤ other

@[simp] theorem limit_zero : limit 0 = ⊤ := rfl

theorem limit_of_ne {n : UInt64} (h : n ≠ 0) : limit n = n.toNat := if_neg h

theorem min_ne_zero {own other : UInt64} (hown : own ≠ 0) (hother : other ≠ 0) : min own other ≠ 0 := by
  rw [Ne, ← UInt64.toNat_inj, UInt64.toNat_min] at *
  change own.toNat ≠ 0 at hown
  change other.toNat ≠ 0 at hother
  change min own.toNat other.toNat ≠ 0
  omega

theorem negotiated (own other : UInt64) : Negotiated own other (negotiatedLimit own other) := by
  unfold negotiatedLimit
  split_ifs with hboth hown hother
  · obtain ⟨rfl, rfl⟩ := hboth
    exact ⟨rfl, by simp, by simp⟩
  · subst hown
    refine ⟨by simp, by simp, fun hne => ⟨hne, UInt64.le_refl _⟩⟩
  · subst hother
    refine ⟨by simp, by simp [hown], by simp⟩
  · have hne := min_ne_zero hown hother
    refine ⟨?_, by simp [hne, hown], fun _ => ⟨hne, ?_⟩⟩
    · rw [limit_of_ne hne, limit_of_ne hown, limit_of_ne hother, UInt64.toNat_min]
      exact Nat.mono_cast.map_min
    · rw [UInt64.le_iff_toNat_le, UInt64.toNat_min]
      exact Nat.min_le_right _ _

section
variable {http : HttpCrate}

theorem handleConnection_eq (hhttp : http.Lawful) {client : ClientConfig} (server : ServerState) {requestPadding responsePadding : Text}
    (hresponse : Plain responsePadding) {request : HttpRequest http}
    (hrequest : client.request http requestPadding = .ok request) :
    (server.authenticate (receivedAuth client.auth) client.bandwidthMaxRx = none ∧
      server.handleConnection responsePadding request = .ok (⟨statusNotFound, http.new⟩, none)) ∨
    ∃ answer, (server.authenticate (receivedAuth client.auth) client.bandwidthMaxRx).isSome ∧
      server.handleConnection responsePadding request = .ok (⟨statusAuthOk, answer⟩,
        some (if server.ignoreClientBandwidth then 0
          else negotiatedLimit server.bandwidthMaxTx client.bandwidthMaxRx)) ∧
      authResponseFromHeaders answer =
        ⟨!server.disableUdp, if server.ignoreClientBandwidth then 0 else server.bandwidthMaxRx,
          server.ignoreClientBandwidth⟩ := by
  rw [ClientConfig.request] at hrequest
  cases hwritten : authRequestToHeaders requestPadding http.new ⟨client.auth, client.bandwidthMaxRx⟩ with
  | error error =>
    rw [hwritten] at hrequest
    cases hrequest
  | ok written =>
    rw [hwritten] at hrequest
    cases hrequest
    obtain ⟨answer, hanswer, hanswered⟩ := hhttp.authResponseFromHeaders_eq hresponse http.new
      ⟨!server.disableUdp, server.bandwidthMaxRx, server.ignoreClientBandwidth⟩
    simp only [ServerState.handleConnection, hhttp.authRequestFromHeaders_eq hwritten, hanswer]
    cases haccept : server.authenticate (receivedAuth client.auth) client.bandwidthMaxRx with
    | none => exact .inl ⟨rfl, rfl⟩
    | some id => exact .inr ⟨answer, rfl, rfl, hanswered⟩

theorem accept_eq (client : ClientConfig) {answer : http.HeaderMap} {udpEnabled rxAuto : Bool} {rx : UInt64}
    (h : authResponseFromHeaders answer = ⟨udpEnabled, rx, rxAuto⟩) :
    client.accept ⟨statusAuthOk, answer⟩ =
      .ok ⟨udpEnabled, if rxAuto then 0 else negotiatedLimit client.bandwidthMaxTx rx⟩ := by
  simp only [ClientConfig.accept, h, ne_eq, not_true_eq_false, if_false]

theorem handshake_eq (hhttp : http.Lawful) {client : ClientConfig} (server : ServerState) {requestPadding responsePadding : Text}
    (hresponse : Plain responsePadding) {request : HttpRequest http}
    (hrequest : client.request http requestPadding = .ok request) :
    handshake http client server requestPadding responsePadding =
      if (server.authenticate (receivedAuth client.auth) client.bandwidthMaxRx).isSome then
        .ok (⟨!server.disableUdp, if server.ignoreClientBandwidth then 0
            else negotiatedLimit client.bandwidthMaxTx server.bandwidthMaxRx⟩,
          some (if server.ignoreClientBandwidth then 0
            else negotiatedLimit server.bandwidthMaxTx client.bandwidthMaxRx))
      else .error (.authentication statusNotFound) := by
  rw [handshake, hrequest]
  obtain ⟨hrefused, hanswer⟩ | ⟨answer, haccepted, hanswer, hread⟩ := handleConnection_eq hhttp server hresponse hrequest
  · rw [if_neg (by simp [hrefused])]
    simp only [bind, Except.bind, hanswer]
    rfl
  · rw [if_pos haccepted]
    simp only [bind, Except.bind, hanswer, accept_eq client hread]
    cases server.ignoreClientBandwidth <;> rfl

/-- Both sides send at the smaller of their own limit and the other's, and without a limit
where the server ignores the client's bandwidth. The exchange is over unless the credential
cannot be sent or the server refuses it. -/
theorem handshake_limits (hhttp : http.Lawful) (client : ClientConfig) (server : ServerState)
    (requestPadding responsePadding : Text) (hresponse : authResponsePadding.Samples responsePadding) :
    (∀ info actualTx, handshake http client server requestPadding responsePadding = .ok (info, actualTx) →
      ∃ serverTx, actualTx = some serverTx ∧
        if server.ignoreClientBandwidth then info.tx = 0 ∧ serverTx = 0
        else Negotiated client.bandwidthMaxTx server.bandwidthMaxRx info.tx ∧
          Negotiated server.bandwidthMaxTx client.bandwidthMaxRx serverTx) ∧
    ((http.fromStr client.auth).isSome → authRequestPadding.Samples requestPadding →
      (server.authenticate (receivedAuth client.auth) client.bandwidthMaxRx).isSome →
      ∃ info serverTx, handshake http client server requestPadding responsePadding = .ok (info, some serverTx)) := by
  have hplain := plain_of_isAlphanumeric hresponse.2.2
  constructor
  · intro info actualTx h
    cases hrequest : client.request http requestPadding with
    | error error =>
      rw [handshake, hrequest] at h
      cases h
    | ok request =>
      rw [handshake_eq hhttp server hplain hrequest] at h
      split at h <;> cases h
      refine ⟨_, rfl, ?_⟩
      split_ifs
      · exact ⟨rfl, rfl⟩
      · exact ⟨negotiated _ _, negotiated _ _⟩
  · intro hauth hrequest haccept
    obtain ⟨written, hwritten⟩ := @HttpCrate.Lawful.exists_authRequestToHeaders _ hhttp _
      (plain_of_isAlphanumeric hrequest.2.2) http.new ⟨client.auth, client.bandwidthMaxRx⟩ hauth
    have hok : client.request http requestPadding = .ok ⟨true, urlPath, some urlHost, written⟩ := by
      rw [ClientConfig.request, hwritten]
      rfl
    exact ⟨_, _, by rw [handshake_eq hhttp server hplain hok, if_pos haccept]⟩

end

theorem handshake_limits_open :
    ∃ info serverTx,
      handshake HeaderBytes.crate ⟨"secret".toList, 2000, 0⟩ ⟨3000, 1000, false, false, fun auth _ => some auth⟩
        samplePadding samplePadding = .ok (info, some serverTx) ∧
      Negotiated 2000 1000 info.tx ∧ Negotiated 3000 0 serverTx := by
  obtain ⟨hlimits, hover⟩ := handshake_limits HeaderBytes.lawful ⟨"secret".toList, 2000, 0⟩
    ⟨3000, 1000, false, false, fun auth _ => some auth⟩ samplePadding samplePadding samplePadding_samples
  obtain ⟨info, serverTx, h⟩ := hover (by decide) samplePadding_samples rfl
  obtain ⟨_, ⟨⟩, hnegotiated⟩ := hlimits info _ h
  exact ⟨info, serverTx, h, hnegotiated⟩

end Hysteria.Core
