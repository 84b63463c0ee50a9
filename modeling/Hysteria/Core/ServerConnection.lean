import Hysteria.Core.Handshake
import Hysteria.Core.ServedRequests
import Hysteria.Core.ServerUdp

/-! A connection of the server, `handle_connection`: its first request decides whether it is served. The
client may do anything at any time, and so may the remotes; the tasks of the connection take turns in
any order. -/
namespace Hysteria.Core
open Lib

structure PasswordAuthenticator where
  password : Text
  authId : Text

def PasswordAuthenticator.new (password : Text) : PasswordAuthenticator := ⟨password, password⟩

def PasswordAuthenticator.authenticate (authenticator : PasswordAuthenticator) (auth : Text) (_clientTx : UInt64) :
    Option Text :=
  if auth = authenticator.password then some authenticator.authId else none

structure ServerSettings extends ServerState where
  speedTest : Bool
  udpIdleTimeout : Nat

inductive ConnectionStage (http : HttpCrate) where
  | accepting
  | answering (response : HttpResponse http) (actualTx : Option UInt64)
  | rejected
  | serving
  | ended (result : Except CoreError Unit)

/-- Every stream has a task of its own, which goes on when `handle_connection` returns. `request` and
`responses` are histories. -/
structure ServerConnection (http : HttpCrate) where
  stage : ConnectionStage http
  txTarget : UInt64
  streams : List (StreamConfig × ServedStream)
  udp : Option ServerUdp
  request : Option (HttpRequest http)
  responses : List (HttpResponse http)

section
variable {http : HttpCrate}

namespace ServerSettings

def Admits (settings : ServerSettings) (request : HttpRequest http) : Prop :=
  (request.isPost ∧ request.path = urlPath ∧ request.host = some urlHost) ∧
    ∃ id, settings.authenticate (authRequestFromHeaders request.headers).auth
      (authRequestFromHeaders request.headers).rx = some id

def actualTx (settings : ServerSettings) (request : HttpRequest http) : UInt64 :=
  if settings.ignoreClientBandwidth then 0
  else negotiatedLimit settings.bandwidthMaxTx (authRequestFromHeaders request.headers).rx

end ServerSettings

end

/-- The receive tasks, which outlive the loop that has spawned them. -/
def ServerUdp.Event.isTask : ServerUdp.Event → Bool
  | .pollTask _ => true
  | .yieldTask _ => true
  | .endTask _ => true
  | _ => false

namespace ServerConnection

/-- `taskEnds` is the end of the first of the two tasks of an authenticated connection, `fails` that
of any other wait. -/
inductive Event (http : HttpCrate) where
  | noRequest
  | requests (request : HttpRequest http) (padding : Text)
  | responds
  | accepts (config : StreamConfig)
  | stream (i : Nat) (event : ServedStream.Event)
  | client (i : Nat) (event : ServedStream.ClientEvent)
  | udp (profile : Profile) (event : ServerUdp.Event)
  | taskEnds (result : Except CoreError Unit)
  | closes
  | fails (err : CoreError)

variable {http : HttpCrate}

def start : ServerConnection http := ⟨.accepting, 0, [], none, none, []⟩

/-- The target is set before the response is built. -/
def answer (settings : ServerSettings) (c : ServerConnection http) (request : HttpRequest http) (padding : Text) :
    ServerConnection http :=
  match settings.handleConnection padding request with
  | .ok (response, none) => { c with stage := .answering response none, request := some request }
  | .ok (response, some actualTx) =>
    { c with stage := .answering response (some actualTx), request := some request, txTarget := actualTx }
  | .error err =>
    { c with stage := .ended (.error err), request := some request, txTarget := settings.actualTx request }

def responded (settings : ServerSettings) (c : ServerConnection http) (response : HttpResponse http) :
    Option UInt64 → ServerConnection http
  | none => { c with stage := .rejected, responses := c.responses ++ [response] }
  | some _ =>
    { c with
      stage := .serving
      responses := c.responses ++ [response]
      udp := if settings.disableUdp then none else some .new }

def streamStep (c : ServerConnection http) (i : Nat) (next : StreamConfig → ServedStream → Option ServedStream) :
    Option (ServerConnection http) :=
  match c.streams[i]? with
  | some (config, s) => (next config s).map fun s => { c with streams := c.streams.set i (config, s) }
  | none => none

def step (settings : ServerSettings) (c : ServerConnection http) : Event http → Option (ServerConnection http)
  | .noRequest =>
    match c.stage with
    | .accepting => some { c with stage := .ended (.ok ()) }
    | _ => none
  | .requests request padding =>
    match c.stage with
    | .accepting => some (c.answer settings request padding)
    | _ => none
  | .responds =>
    match c.stage with
    | .answering response actualTx => some (c.responded settings response actualTx)
    | _ => none
  | .accepts config =>
    match c.stage with
    | .serving =>
      if config.speedTestEnabled = settings.speedTest then some { c with streams := c.streams ++ [(config, .start)] }
      else none
    | _ => none
  | .stream i event => c.streamStep i fun config s => s.step config event
  | .client i event => c.streamStep i fun _ s => s.clientStep event
  | .udp profile event =>
    match c.stage, c.udp with
    | .serving, some udp => (udp.step profile settings.udpIdleTimeout event).map fun udp => { c with udp := some udp }
    | _, some udp =>
      if event.isTask then
        (udp.step profile settings.udpIdleTimeout event).map fun udp => { c with udp := some udp }
      else none
    | _, none => none
  | .taskEnds result =>
    match c.stage with
    | .serving => some { c with stage := .ended result }
    | _ => none
  | .closes =>
    match c.stage with
    | .rejected => some { c with stage := .ended (.ok ()) }
    | _ => none
  | .fails err =>
    match c.stage with
    | .accepting => some { c with stage := .ended (.error err) }
    | .answering _ _ => some { c with stage := .ended (.error err) }
    | _ => none

def runs (settings : ServerSettings) (events : List (Event http)) : Option (ServerConnection http) := run (step settings) start events

variable {settings : ServerSettings} {c after : ServerConnection http}

theorem handleConnection_cases {padding : Text} {request : HttpRequest http} {response : HttpResponse http}
    {actualTx : Option UInt64} (h : settings.handleConnection padding request = .ok (response, actualTx)) :
    actualTx = none ∧ response.status = statusNotFound ∨
      actualTx = some (settings.actualTx request) ∧ settings.Admits request := by
  unfold ServerState.handleConnection at h
  dsimp only at h
  split at h
  · cases h
    exact .inl ⟨rfl, rfl⟩
  · next hvalid =>
    split at h
    · cases h
      exact .inl ⟨rfl, rfl⟩
    · next id haccepted =>
      obtain ⟨headers, -, hreturn⟩ := bind_eq_ok.mp h
      cases hreturn
      have hrequest : (request.isPost ∧ request.path = urlPath) ∧ request.host = some urlHost := by simpa using hvalid
      exact .inr ⟨rfl, ⟨hrequest.1.1, hrequest.1.2, hrequest.2⟩, id, haccepted⟩

theorem admits_of_error {padding : Text} {request : HttpRequest http} {err : CoreError}
    (h : settings.handleConnection padding request = .error err) : settings.Admits request := by
  unfold ServerState.handleConnection at h
  dsimp only at h
  split at h
  · cases h
  · next hvalid =>
    split at h
    · cases h
    · next id haccepted =>
      have hrequest : (request.isPost ∧ request.path = urlPath) ∧ request.host = some urlHost := by simpa using hvalid
      exact ⟨⟨hrequest.1.1, hrequest.1.2, hrequest.2⟩, id, haccepted⟩

def Admitted (settings : ServerSettings) (c : ServerConnection http) : Prop :=
  ∃ request, c.request = some request ∧ settings.Admits request ∧ c.txTarget = settings.actualTx request

def Outside : ConnectionStage http → Prop
  | .answering response actualTx => actualTx = none ∧ response.status = statusNotFound
  | .serving => False
  | _ => True

structure Untouched (c : ServerConnection http) : Prop where
  stage : Outside c.stage
  txTarget : c.txTarget = 0
  streams : c.streams = []
  udp : c.udp = none
  responses : ∀ response ∈ c.responses, response.status = statusNotFound

def Unanswered : ConnectionStage http → Prop
  | .accepting => True
  | .answering _ _ => True
  | _ => False

structure Inv (settings : ServerSettings) (c : ServerConnection http) : Prop where
  gate : c.Untouched ∨ c.Admitted settings
  fresh : c.stage = .accepting → c.Untouched
  streams : ∀ stream ∈ c.streams, stream.2.Served
  disabled : settings.disableUdp → c.udp = none
  answered : c.responses.length ≤ 1 ∧ (Unanswered c.stage → c.responses = [])

theorem untouched_start : (start : ServerConnection http).Untouched where
  stage := trivial
  txTarget := rfl
  streams := rfl
  udp := rfl
  responses _ h := absurd h List.not_mem_nil

theorem inv_start (settings : ServerSettings) : Inv settings (start : ServerConnection http) where
  gate := .inl untouched_start
  fresh _ := untouched_start
  streams _ h := absurd h List.not_mem_nil
  disabled _ := rfl
  answered := ⟨Nat.zero_le 1, fun _ => rfl⟩

theorem Inv.enter {stage : ConnectionStage http} (h : Inv settings c) (hstage : stage ≠ .accepting) (houtside : Outside stage)
    (hanswered : ¬ Unanswered stage) : Inv settings { c with stage } where
  gate := h.gate.imp (fun hout => ⟨houtside, hout.txTarget, hout.streams, hout.udp, hout.responses⟩) id
  fresh hfresh := absurd hfresh hstage
  streams := h.streams
  disabled := h.disabled
  answered := ⟨h.answered.1, fun hun => absurd hun hanswered⟩

theorem Inv.answer (h : Inv settings c) (hstage : c.stage = .accepting) (request : HttpRequest http) (padding : Text) :
    Inv settings (c.answer settings request padding) := by
  have hout := h.fresh hstage
  have hresponses : c.responses = [] := h.answered.2 (hstage ▸ trivial)
  unfold ServerConnection.answer
  split
  · next response hconnection =>
    rcases handleConnection_cases hconnection with ⟨-, hstatus⟩ | ⟨⟨⟩, -⟩
    exact ⟨.inl ⟨⟨rfl, hstatus⟩, hout.txTarget, hout.streams, hout.udp, hout.responses⟩, nofun, h.streams, h.disabled,
      h.answered.1, fun _ => hresponses⟩
  · next response actualTx hconnection =>
    rcases handleConnection_cases hconnection with ⟨⟨⟩, -⟩ | ⟨htx, hadmits⟩
    exact ⟨.inr ⟨request, rfl, hadmits, Option.some.inj htx⟩, nofun, h.streams, h.disabled, h.answered.1,
      fun _ => hresponses⟩
  · next err hconnection =>
    exact ⟨.inr ⟨request, rfl, admits_of_error hconnection, rfl⟩, nofun, h.streams, h.disabled, h.answered.1,
      False.elim⟩

theorem Inv.responded {response : HttpResponse http} {actualTx : Option UInt64} (h : Inv settings c)
    (hstage : c.stage = .answering response actualTx) : Inv settings (c.responded settings response actualTx) := by
  have hresponses : c.responses = [] := h.answered.2 (hstage ▸ trivial)
  have hone : (c.responses ++ [response]).length ≤ 1 := by rw [hresponses]; exact Nat.le_refl 1
  cases actualTx with
  | none =>
    refine ⟨h.gate.imp (fun hout => ?_) id, nofun, h.streams, h.disabled, hone, False.elim⟩
    have hstatus : response.status = statusNotFound := (hstage ▸ hout.stage).2
    refine ⟨trivial, hout.txTarget, hout.streams, hout.udp, ?_⟩
    change ∀ sent ∈ c.responses ++ [response], sent.status = statusNotFound
    rw [hresponses]
    rintro _ (⟨⟩ | ⟨_, ⟨⟩⟩)
    exact hstatus
  | some tx =>
    refine ⟨.inr ?_, nofun, h.streams, fun hdisabled => if_pos hdisabled, hone, False.elim⟩
    rcases h.gate with hout | hadmitted
    · exact absurd (hstage ▸ hout.stage).1 nofun
    · exact hadmitted

theorem Inv.admitted (h : Inv settings c) (hout : ¬ c.Untouched) : c.Admitted settings := h.gate.resolve_left hout

theorem Inv.streamStep {i : Nat} {next : StreamConfig → ServedStream → Option ServedStream} (h : Inv settings c)
    (hnext : ∀ config s s', s.Served → next config s = some s' → s'.Served) (hstep : c.streamStep i next = some after) :
    Inv settings after := by
  unfold ServerConnection.streamStep at hstep
  split at hstep
  · next config s hget =>
    obtain ⟨s', hs', rfl⟩ := Option.map_eq_some_iff.mp hstep
    have hmem := List.mem_of_getElem? hget
    have hadmitted : c.Admitted settings := h.admitted fun hout => by
      rw [hout.streams] at hmem
      cases hmem
    refine ⟨.inr hadmitted, fun hstage => ?_, fun stream hstream => ?_, h.disabled, h.answered⟩
    · rw [(h.fresh hstage).streams] at hmem
      cases hmem
    · rcases List.mem_or_eq_of_mem_set hstream with hold | rfl
      · exact h.streams stream hold
      · exact hnext config s s' (h.streams _ hmem) hs'
  · cases hstep

theorem Inv.withUdp {udp udp' : ServerUdp} (h : Inv settings c) (hudp : c.udp = some udp) :
    Inv settings { c with udp := some udp' } where
  gate := .inr (h.admitted fun hout => absurd (hout.udp.symm.trans hudp) nofun)
  fresh hstage := absurd ((h.fresh hstage).udp.symm.trans hudp) nofun
  streams := h.streams
  disabled hdisabled := absurd ((h.disabled hdisabled).symm.trans hudp) nofun
  answered := h.answered

theorem Inv.step {event : Event http} (h : Inv settings c) (hstep : c.step settings event = some after) :
    Inv settings after := by
  unfold ServerConnection.step at hstep
  split at hstep
  · split at hstep
    · cases hstep
      exact h.enter nofun trivial id
    · cases hstep
  · split at hstep
    · next hstage =>
      cases hstep
      exact h.answer hstage _ _
    · cases hstep
  · split at hstep
    · next hstage =>
      cases hstep
      exact h.responded hstage
    · cases hstep
  · next config =>
    split at hstep
    · next hstage =>
      obtain ⟨-, ⟨⟩⟩ := Option.ite_none_right_eq_some.mp hstep
      have hadmitted : c.Admitted settings := h.admitted fun hout => by
        have houtside := hout.stage
        rw [hstage] at houtside
        exact houtside
      refine ⟨.inr hadmitted, fun hother => absurd (hstage.symm.trans hother) nofun,
        fun stream hstream => ?_, h.disabled, h.answered⟩
      rcases List.mem_append.mp hstream with hold | hnew
      · exact h.streams stream hold
      · cases List.mem_singleton.mp hnew
        exact .unasked ServedStream.unasked_start
    · cases hstep
  · exact h.streamStep (fun _ _ _ hserved hs => hserved.step (ServedStream.step_cases hs)) hstep
  · exact h.streamStep (fun _ _ _ hserved hs => hserved.clientStep hs) hstep
  · split at hstep
    · next hudp =>
      obtain ⟨udp', -, rfl⟩ := Option.map_eq_some_iff.mp hstep
      exact h.withUdp hudp
    · next hudp _ =>
      obtain ⟨-, hmapped⟩ := Option.ite_none_right_eq_some.mp hstep
      obtain ⟨udp', -, rfl⟩ := Option.map_eq_some_iff.mp hmapped
      exact h.withUdp hudp
    · cases hstep
  · split at hstep
    · cases hstep
      exact h.enter nofun trivial id
    · cases hstep
  · split at hstep
    · cases hstep
      exact h.enter nofun trivial id
    · cases hstep
  · split at hstep
    · cases hstep
      exact h.enter nofun trivial id
    · cases hstep
      exact h.enter nofun trivial id
    · cases hstep

theorem inv_of_runs {events : List (Event http)} (h : runs settings events = some c) : Inv settings c :=
  run_induction (fun _ _ _ hinv hstep => hinv.step hstep) (inv_start settings) h

/-- Whatever the client sends, and in whatever order the tasks of its connection run: a stream is served, a UDP session
opened, a send limit set and anything but 404 answered only if its first request was let in, and then with the
limit negotiated from that request. There is at most one answer, there is no UDP where it is disabled, and
nothing is done for a stream but for the one request it begins with. -/
theorem served_of_admitted {events : List (Event http)} (h : runs settings events = some c) :
    (c.streams ≠ [] ∨ c.udp ≠ none ∨ c.txTarget ≠ 0 ∨ (∃ response ∈ c.responses, response.status ≠ statusNotFound) →
      c.Admitted settings) ∧
    c.responses.length ≤ 1 ∧ (settings.disableUdp → c.udp = none) ∧ ∀ stream ∈ c.streams, stream.2.ServesRequest := by
  have hinv := inv_of_runs h
  refine ⟨fun htouched => hinv.admitted fun hout => ?_, hinv.answered.1, hinv.disabled,
    fun stream hstream => (hinv.streams stream hstream).servesRequest⟩
  rcases htouched with hstreams | hudp | htx | ⟨response, hresponse, hstatus⟩
  · exact hstreams hout.streams
  · exact hudp hout.udp
  · exact htx hout.txTarget
  · exact hstatus (hout.responses response hresponse)

def sampleSettings : ServerSettings where
  bandwidthMaxTx := 3000
  bandwidthMaxRx := 1000
  ignoreClientBandwidth := false
  disableUdp := false
  authenticate := (PasswordAuthenticator.new "secret".toList).authenticate
  speedTest := false
  udpIdleTimeout := 60

def sampleRequest : Option (HttpRequest HeaderBytes.crate) :=
  (ClientConfig.request _ ⟨"secret".toList, 0, 2000⟩ samplePadding).toOption

def sampleConfig : StreamConfig := ⟨false, String.ofList (List.replicate 150 's'), by decide +kernel⟩

def sampleEvents (request : HttpRequest HeaderBytes.crate) : List (Event HeaderBytes.crate) :=
  [.requests request samplePadding, .responds, .accepts sampleConfig,
    .client 0 (.writes (68 :: 1 :: 4 :: utf8Bytes "a:80")), .client 0 (.writes [0, 104, 105]), .stream 0 .reads,
    .stream 0 (.dials (.ok ())), .stream 0 (.writes 163), .stream 0 (.upward (.read 2)), .stream 0 (.upward (.write 1))]

theorem served_of_admitted_password :
    ∃ request c, runs sampleSettings (sampleEvents request) = some c ∧ c.txTarget = 2000 ∧ c.Admitted sampleSettings ∧
      ∃ stream ∈ c.streams, stream.2.dialed = ["a:80"] ∧ stream.2.ServesRequest := by
  have hruns : (sampleRequest.bind fun request => (runs sampleSettings (sampleEvents request)).map fun c =>
      (c.txTarget, c.streams.map (·.2.dialed))) = some (2000, [["a:80"]]) := by decide +kernel
  obtain ⟨request, -, hmapped⟩ := Option.bind_eq_some_iff.mp hruns
  obtain ⟨c, hc, hstate⟩ := Option.map_eq_some_iff.mp hmapped
  obtain ⟨htx, hdialed⟩ := Prod.mk.inj hstate
  obtain ⟨stream, hstream, hone⟩ : ∃ stream ∈ c.streams, stream.2.dialed = ["a:80"] := by
    have hmem : ["a:80"] ∈ c.streams.map (·.2.dialed) := hdialed ▸ List.mem_singleton_self _
    exact List.mem_map.mp hmem
  obtain ⟨hadmitted, -, -, hdials⟩ := served_of_admitted hc
  exact ⟨request, c, hc, htx, hadmitted (.inl (List.ne_nil_of_mem hstream)), stream, hstream, hone, hdials stream hstream⟩

end ServerConnection
end Hysteria.Core
