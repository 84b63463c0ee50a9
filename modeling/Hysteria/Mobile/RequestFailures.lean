import Hysteria.Mobile.LocalSocks

/-! The controller reconnects where the error of a single request has a recovery reason. Here
is said which requests of the SOCKS5 listener end so while the connection stays open. -/
namespace Hysteria.Mobile.LocalSocks
open Lib Hysteria.Core App.Socks5

variable {Addr : Type} [DecidableEq Addr]

def Reconnects (result : Option (Exec Failure Unit)) : Prop :=
  ∃ failure, result = some (.error (.error failure)) ∧ (connectionRecoveryReason failure).isSome

def Plain (x : Served α) : Prop :=
  ∀ stream failure, x stream = .error (.error failure) → connectionRecoveryReason failure = none

section
variable {x : Served α}

theorem plain_pure (a : α) : Plain (pure a) := by
  rintro stream failure ⟨⟩

theorem plain_fail {failure : Failure} (h : connectionRecoveryReason failure = none) : Plain (fail failure : Served α) := by
  rintro stream _ ⟨⟩
  exact h

theorem plain_bail (text : String) : Plain (bail text : Served α) := plain_fail rfl

theorem Plain.bind {f : α → Served β} (hx : Plain x) (hf : ∀ a, Plain (f a)) : Plain (x >>= f) := by
  intro stream failure h
  have hbind : (x stream >>= fun (a, stream) => f a stream) = .error (.error failure) := h
  match hresult : x stream with
  | .error fault =>
    rw [hresult] at hbind
    cases hbind
    exact hx stream failure hresult
  | .ok (a, stream) =>
    rw [hresult] at hbind
    exact hf a stream failure hbind

theorem plain_readExact (n : Nat) : Plain (readExact n) := by
  intro stream failure h
  rw [readExact] at h
  split at h
  · cases h
  · cases h
    rfl

theorem plain_writeOr {failure : String → Failure} (h : ∀ text, connectionRecoveryReason (failure text) = none)
    (bytes : List UInt8) : Plain (writeOr failure bytes) := by
  intro stream failure' hfail
  rw [writeOr] at hfail
  split at hfail
  · cases hfail
    exact h _
  · cases hfail

theorem plain_writeAll (bytes : List UInt8) : Plain (writeAll bytes) := plain_writeOr (fun _ => rfl) bytes

theorem plain_withContext (context : String) (result : Except String α) : Plain (withContext context result) := by
  cases result with
  | ok a => exact plain_pure a
  | error text => exact plain_fail rfl

theorem plain_orBail (result : Except String α) : Plain (orBail result) := by
  cases result with
  | ok a => exact plain_pure a
  | error text => exact plain_bail text

theorem plain_writeAll_bail (bytes : List UInt8) (text : String) :
    Plain (do writeAll bytes; bail text : Served α) := (plain_writeAll bytes).bind fun _ => plain_bail text

theorem plain_negotiate (auth : Option (String × String)) : Plain (negotiate auth) := by
  refine (plain_readExact 2).bind fun header => ?_
  dsimp only
  split
  · exact plain_bail _
  · refine (plain_readExact _).bind fun methods => ?_
    generalize (if auth.isSome then (2 : UInt8) else 0) = selected
    split
    · refine (plain_writeAll _).bind fun _ => ?_
      split
      · exact plain_pure _
      · refine (plain_readExact 2).bind fun authHeader => ?_
        split
        · exact plain_writeAll_bail _ _
        · refine (plain_readExact _).bind fun username => (plain_readExact 1).bind fun passwordLen =>
            (plain_readExact _).bind fun password => ?_
          split
          · exact plain_writeAll _
          · exact plain_writeAll_bail _ _
    · exact plain_writeAll_bail _ _

theorem plain_readHost (atyp : UInt8) : Plain (readHost atyp) := by
  rw [readHost]
  split
  · exact (plain_readExact 4).bind fun raw => plain_pure _
  · split
    · exact (plain_readExact 16).bind fun raw => plain_pure _
    · split
      · refine (plain_readExact 1).bind fun len => (plain_readExact _).bind fun raw => ?_
        split
        · exact plain_pure _
        · exact plain_bail _
      · exact plain_bail _

theorem plain_readRequest : Plain readRequest := by
  refine (plain_readExact 4).bind fun header => ?_
  dsimp only
  split
  · exact plain_bail _
  · refine Plain.bind ?_ fun address => plain_pure _
    exact (plain_readHost _).bind fun host => (plain_readExact 2).bind fun port => plain_pure _

theorem plain_readSocksRequest (auth : Option (String × String)) : Plain (readSocksRequest auth) :=
  (plain_negotiate auth).bind fun _ => plain_readRequest

theorem plain_readQuery : Plain readQuery := by
  refine Plain.bind ?_ fun first => ?_
  · intro stream failure h
    rw [readByte] at h
    split at h <;> cases h
    rfl
  · cases first with
    | none => exact plain_pure _
    | some first => exact (plain_readExact 1).bind fun second => (plain_readExact _).bind fun query => plain_pure _

theorem plain_answerQuery (answer : Except String (List UInt8)) : Plain (answerQuery none answer) := by
  refine (plain_orBail answer).bind fun response => ?_
  split
  · exact plain_bail _
  · exact (plain_writeAll _).bind fun _ => (plain_writeAll _).bind fun _ => plain_writeOr (fun _ => rfl) _

/-- A request that goes on goes wrong, if at all, in what follows. -/
theorem reconnects_proceed (hx : Plain x) {stream : LocalStream}
    {next : α → LocalStream → Option (Exec Failure Unit)} :
    Reconnects (proceed x stream next) ↔ ∃ a stream', x stream = .ok (a, stream') ∧ Reconnects (next a stream') := by
  rw [proceed]
  match hresult : x stream with
  | .ok (a, stream') =>
    constructor
    · exact fun h => ⟨a, stream', rfl, h⟩
    · rintro ⟨_, _, ⟨⟩, h⟩
      exact h
  | .error fault =>
    constructor
    · rintro ⟨failure, hfailure, hreason⟩
      cases hfailure
      rw [hx stream failure hresult] at hreason
      cases hreason
    · rintro ⟨_, _, ⟨⟩, -⟩

end

theorem not_reconnects_ok : ¬ Reconnects (some (.ok ())) := by
  rintro ⟨_, ⟨⟩, -⟩

theorem reconnects_error {failure : Failure} :
    Reconnects (some (.error (.error failure))) ↔ (connectionRecoveryReason failure).isSome := by
  constructor
  · rintro ⟨_, ⟨⟩, h⟩
    exact h
  · exact fun h => ⟨failure, rfl, h⟩

theorem not_reconnects_panic {why : Panic} : ¬ Reconnects (some (.error (.panic why))) := by
  rintro ⟨_, ⟨⟩, -⟩

theorem not_reconnects_handleDnsOverTcp (answers : List (Except String (List UInt8))) (stream : LocalStream) :
    ¬ Reconnects (handleDnsOverTcp none answers stream) := by
  induction answers generalizing stream with
  | nil =>
    rw [handleDnsOverTcp, reconnects_proceed plain_readQuery]
    rintro ⟨query, stream', -, h⟩
    cases query with
    | none => exact not_reconnects_ok h
    | some query => obtain ⟨_, ⟨⟩, -⟩ := h
  | cons answer answers ih =>
    rw [handleDnsOverTcp, reconnects_proceed plain_readQuery]
    rintro ⟨query, stream', -, h⟩
    cases query with
    | none => exact not_reconnects_ok h
    | some query =>
      obtain ⟨-, stream'', -, h⟩ := (reconnects_proceed (plain_answerQuery answer)).mp h
      exact ih stream'' h

/-- The connection of the tunnel is not lost while the request is served. -/
structure Surroundings.Open (s : Surroundings Addr) : Prop where
  closeReason : s.closeReason = none
  opened : s.stream.opened = .ok ()
  written : s.stream.written ≠ .error .connectionLost
  ended : s.stream.ended ≠ some .connectionLost
  managerClosed : s.managerClosed = false
  sent : ∀ upload ∈ s.uploads, .error .connectionLost ∉ upload.link.results

/-- The peer of a datagram, its destination and its payload, where it can be parsed. -/
def Upload.datagram (upload : Upload Addr) : Option (Addr × String × List UInt8) :=
  match upload.received with
  | .error _ => none
  | .ok datagram =>
    match parseUdpDatagram datagram.received with
    | .ok (some (destination, payload)) => some (datagram.peer, destination, payload)
    | _ => none

/-- The client of the association: the peer of the first datagram. -/
def Surroundings.client (s : Surroundings Addr) : Option Addr := (s.uploads.filterMap Upload.datagram).head?.map (·.1)

def Surroundings.Resolves (s : Surroundings Addr) (destination : String) : Prop :=
  ∃ resolver ∈ s.resolver, resolver.matchDestination destination = some .plain

def Surroundings.Sends (s : Surroundings Addr) (client : Option Addr) (upload : Upload Addr) (message : UDPMessage) :
    Prop :=
  ∃ peer destination payload, upload.datagram = some (peer, destination, payload) ∧ client = some peer ∧
    ¬ s.Resolves destination ∧ s.disableUdp = false ∧ message = ⟨s.sessionId, 0, 0, 1, destination, payload⟩

/-- The message of an upload is not taken. -/
def Surroundings.Refused (s : Surroundings Addr) (client : Option Addr) (upload : Upload Addr) : Prop :=
  ∃ message, s.Sends client upload message ∧ (upload.link.closed ∨ upload.link.Refuses s.profile message)

/-- The socket has received something that is no malformed datagram, and what the client has sent was answered
or taken. -/
structure Surroundings.Passed (s : Surroundings Addr) (client : Option Addr) (upload : Upload Addr) : Prop where
  received : ∃ datagram, upload.received = .ok datagram ∧ (parseUdpDatagram datagram.received).isOk
  answered : ∀ peer destination payload, upload.datagram = some (peer, destination, payload) → client = some peer →
    s.Resolves destination → upload.answered = .ok ()
  taken : ∀ message, s.Sends client upload message → upload.link.closed = false ∧
    ¬ upload.link.Refuses s.profile message ∧ ¬ upload.link.Overflows s.profile message

/-- The session fails first: a message is not taken, or the session has ended. -/
def Surroundings.SessionFails (s : Surroundings Addr) : Prop :=
  (s.ended = .upload ∧ ∃ before upload after, s.uploads = before ++ upload :: after ∧
    (∀ earlier ∈ before, s.Passed s.client earlier) ∧ s.Refused s.client upload) ∨
  (s.ended = .download ∧ s.disableUdp = false ∧ ∃ before download after, s.downloads = before ++ download :: after ∧
    (∀ earlier ∈ before, earlier.received.isSome ∧ earlier.passedOn = .ok ()) ∧ download.received = none)

section
variable {s : Surroundings Addr}

omit [DecidableEq Addr] in
theorem Surroundings.Open.not_reconnects_relayed (h : s.Open) (context : String) :
    ¬ Reconnects (some (s.relayed context)) := by
  rw [Surroundings.relayed, h.closeReason]
  cases s.relay with
  | ok _ => exact not_reconnects_ok
  | error text =>
    rw [reconnects_error]
    rintro ⟨⟩

theorem plain_writeReply (reply : UInt8) (bindAddr : Option (List UInt8)) : Plain (writeReply reply bindAddr) :=
  plain_writeAll _

omit [DecidableEq Addr] in
theorem Surroundings.Open.reconnects_connectThrough (h : s.Open) (address : String) (stream : LocalStream) :
    Reconnects (s.connectThrough address stream) ↔
      s.stream.CutOff s.padding address ∧ ∃ stream', writeReply 4 none stream = .ok ((), stream') := by
  rw [Surroundings.connectThrough]
  rcases @Client.tcp_cases s.stream s.padding address h.opened with ⟨hcut, text, htcp⟩ | ⟨hcut, herror⟩
  · simp only [htcp, reconnects_proceed (plain_writeReply 4 none), reconnects_error]
    constructor
    · rintro ⟨⟨⟩, stream', hreply, -⟩
      exact ⟨hcut, stream', hreply⟩
    · rintro ⟨-, stream', hreply⟩
      exact ⟨(), stream', hreply, rfl⟩
  · refine iff_of_false ?_ fun hall => hcut hall.1
    match htcp : Client.tcp s.padding address s.stream with
    | .ok () =>
      simp only [reconnects_proceed (plain_writeReply 0 none)]
      rintro ⟨-, -, -, hrelay⟩
      exact h.not_reconnects_relayed _ hrelay
    | .error (.panic why) => exact not_reconnects_panic
    | .error (.error err) =>
      simp only [reconnects_proceed (plain_writeReply 4 none), reconnects_error]
      rintro ⟨-, -, -, hreason⟩
      rcases herror err htcp with ⟨message, rfl⟩ | ⟨e, rfl⟩ <;> cases hreason

omit [DecidableEq Addr] in
theorem Surroundings.Open.reconnects_handleConnect (h : s.Open) (address : String) (stream : LocalStream) :
    Reconnects (s.handleConnect address stream) ↔
      (∀ resolver ∈ s.resolver, resolver.matchDestination address = none) ∧ s.stream.CutOff s.padding address ∧
        ∃ stream', writeReply 4 none stream = .ok ((), stream') := by
  rw [Surroundings.handleConnect]
  match hmatch : s.resolver.bind fun resolver => (resolver.matchDestination address).map (resolver, ·) with
  | none =>
    have hnone : ∀ resolver ∈ s.resolver, resolver.matchDestination address = none := by
      intro resolver hresolver
      simpa [Option.mem_def.mp hresolver] using hmatch
    rw [and_iff_right hnone]
    exact h.reconnects_connectThrough address stream
  | some (resolver, transport) =>
    -- the DNS proxy serves the request
    obtain ⟨resolver', hresolver, hmap⟩ := Option.bind_eq_some_iff.mp hmatch
    obtain ⟨transport', htransport, hpair⟩ := Option.map_eq_some_iff.mp hmap
    cases hpair
    have hserved : ¬ ∀ resolver ∈ s.resolver, resolver.matchDestination address = none := by
      intro hnone
      rw [hnone resolver hresolver] at htransport
      cases htransport
    refine iff_of_false ?_ fun hall => hserved hall.1
    cases transport with
    | plain =>
      simp only [reconnects_proceed (plain_writeReply 0 none), h.closeReason]
      rintro ⟨-, stream', -, hdns⟩
      exact not_reconnects_handleDnsOverTcp _ _ hdns
    | dot =>
      simp only [reconnects_proceed (plain_writeReply 0 none)]
      rintro ⟨-, stream', -, hdns⟩
      rw [Surroundings.handleDnsOverTls] at hdns
      cases hupstream : resolver.dotUpstream with
      | error text =>
        rw [hupstream, reconnects_error] at hdns
        cases hdns
      | ok _ =>
        rw [hupstream] at hdns
        exact h.not_reconnects_relayed _ hdns

omit [DecidableEq Addr] in
theorem Surroundings.Passed.not_refused {client : Option Addr} {upload : Upload Addr} (h : s.Passed client upload) :
    ¬ s.Refused client upload := by
  rintro ⟨message, hsends, hclosed | hrefuses⟩
  · rw [(h.taken message hsends).1] at hclosed
    cases hclosed
  · exact (h.taken message hsends).2.1 hrefuses

theorem UdpSession.send_cases (profile : Profile) (link : DatagramLink) (sessionId : UInt32) (payload : List UInt8)
    (destination : String) :
    let message : UDPMessage := ⟨sessionId, 0, 0, 1, destination, payload⟩
    (link.closed ∨ link.Refuses profile message) ∧
        (∃ err, UdpSession.send profile link sessionId payload destination = .error (.error err) ∧
          (connectionRecoveryReason [.message "SOCKS5 UDP upload failed", .core err]).isSome) ∨
      (¬ (link.closed ∨ link.Refuses profile message) ∧ link.Overflows profile message) ∧
        (∃ why, UdpSession.send profile link sessionId payload destination = .error (.panic why)) ∨
      (link.closed = false ∧ ¬ link.Refuses profile message ∧ ¬ link.Overflows profile message) ∧
        UdpSession.send profile link sessionId payload destination = .ok () := by
  intro message
  rw [UdpSession.send]
  cases hclosed : link.closed with
  | true => exact .inl ⟨.inl rfl, _, rfl, rfl⟩
  | false =>
    rcases sendUdpMessage_cases profile link message with
      ⟨hrefuses, text, hsend⟩ | ⟨hover, why, hsend⟩ | ⟨⟨hrefuses, hover⟩, hsend⟩
    · exact .inl ⟨.inr hrefuses, _, hsend, rfl⟩
    · exact .inr (.inl ⟨⟨by simp [hover.not_refuses], hover⟩, why, hsend⟩)
    · exact .inr (.inr ⟨⟨rfl, hrefuses, hover⟩, hsend⟩)

/-- A task that ends the association is a reason to reconnect for its failure alone. -/
def Recovers (fault : Fault Failure) : Prop :=
  ∃ failure, fault = .error failure ∧ (connectionRecoveryReason failure).isSome

theorem reconnects_joined {context : String} {fault : Option (Fault Failure)} :
    Reconnects (fault.map (joined context)) ↔ ∃ failure, fault = some failure ∧ Recovers failure := by
  match fault with
  | none => simp [Reconnects]
  | some (.error failure) => simp [Reconnects, joined, Recovers]
  | some (.panic why) => simp [Reconnects, joined, connectionRecoveryReason, Recovers]

theorem not_recovers_message (text : String) : ¬ Recovers (.error [.message text]) := by
  rintro ⟨failure, ⟨⟩, ⟨⟩⟩

def Knows (client : Option Addr) (known : Option Addr) (uploads : List (Upload Addr)) : Prop :=
  (known = client ∧ known.isSome) ∨ known = none ∧ (uploads.filterMap Upload.datagram).head?.map (·.1) = client

omit [DecidableEq Addr] in
theorem Upload.datagram_of_parse {upload : Upload Addr} {datagram : Datagram Addr} {destination : String}
    {payload : List UInt8} (hreceived : upload.received = .ok datagram)
    (hparse : parseUdpDatagram datagram.received = .ok (some (destination, payload))) :
    upload.datagram = some (datagram.peer, destination, payload) := by
  rw [Upload.datagram, hreceived]
  simp only [hparse]

omit [DecidableEq Addr] in
theorem Upload.parse_of_datagram {upload : Upload Addr} {sent : Addr × String × List UInt8}
    (h : upload.datagram = some sent) : ∃ datagram, upload.received = .ok datagram ∧
      parseUdpDatagram datagram.received = .ok (some sent.2) := by
  rw [Upload.datagram] at h
  split at h
  · cases h
  · next datagram hreceived =>
    split at h
    · next hparse =>
      cases h
      exact ⟨datagram, hreceived, hparse⟩
    · cases h

omit [DecidableEq Addr] in
theorem Surroundings.not_refused_of_none {client : Option Addr} {upload : Upload Addr} (h : upload.datagram = none) :
    ¬ s.Refused client upload := by
  rintro ⟨message, ⟨_, _, _, hsome, -⟩, -⟩
  rw [h] at hsome
  cases hsome

omit [DecidableEq Addr] in
theorem Knows.tail {client known : Option Addr} {upload : Upload Addr} {uploads : List (Upload Addr)}
    (h : Knows client known (upload :: uploads)) (hnone : upload.datagram = none) : Knows client known uploads := by
  rwa [Knows, List.filterMap_cons_none hnone] at h

omit [DecidableEq Addr] in
theorem Knows.of_some {client known : Option Addr} {upload : Upload Addr} {uploads : List (Upload Addr)} {peer : Addr}
    {destination : String} {payload : List UInt8} (h : Knows client known (upload :: uploads))
    (hsome : upload.datagram = some (peer, destination, payload)) :
    known = client ∧ known.isSome ∨ known = none ∧ client = some peer := by
  rw [Knows, List.filterMap_cons_some hsome] at h
  exact h.imp_right fun ⟨hknown, hclient⟩ => ⟨hknown, hclient.symm⟩

omit [DecidableEq Addr] in
theorem Surroundings.Passed.of_client {client : Option Addr} {upload : Upload Addr} {datagram : Datagram Addr}
    {destination : String} {payload : List UInt8} (hreceived : upload.received = .ok datagram)
    (hparse : parseUdpDatagram datagram.received = .ok (some (destination, payload)))
    (hanswered : client = some datagram.peer → s.Resolves destination → upload.answered = .ok ())
    (htaken : client = some datagram.peer → ¬ s.Resolves destination → s.disableUdp = false →
      upload.link.closed = false ∧ ¬ upload.link.Refuses s.profile ⟨s.sessionId, 0, 0, 1, destination, payload⟩ ∧
        ¬ upload.link.Overflows s.profile ⟨s.sessionId, 0, 0, 1, destination, payload⟩) :
    s.Passed client upload := by
  have hdatagram := Upload.datagram_of_parse hreceived hparse
  refine ⟨⟨datagram, hreceived, by rw [hparse]; rfl⟩, ?_, ?_⟩
  · intro peer destination' payload' hsome hclient
    obtain ⟨rfl, rfl, rfl⟩ : datagram.peer = peer ∧ destination = destination' ∧ payload = payload' := by
      simpa using hdatagram.symm.trans hsome
    exact hanswered hclient
  · rintro _ ⟨peer, destination', payload', hsome, hclient, hresolves, hudp, rfl⟩
    obtain ⟨rfl, rfl, rfl⟩ : datagram.peer = peer ∧ destination = destination' ∧ payload = payload' := by
      simpa using hdatagram.symm.trans hsome
    exact htaken hclient hresolves hudp

section
variable {client known : Option Addr} {upload : Upload Addr} {datagram : Datagram Addr} {destination : String}
  {payload : List UInt8}

theorem Surroundings.uploadRound_of_other (hreceived : upload.received = .ok datagram)
    (hparse : parseUdpDatagram datagram.received = .ok (some (destination, payload)))
    (hother : known.any (· ≠ datagram.peer) = true) : s.uploadRound known upload = .next known := by
  rw [Surroundings.uploadRound, hreceived]
  simp only [hparse]
  exact if_pos hother

theorem Surroundings.uploadRound_of_client (hreceived : upload.received = .ok datagram)
    (hparse : parseUdpDatagram datagram.received = .ok (some (destination, payload)))
    (hother : known.any (· ≠ datagram.peer) = false) :
    (s.Resolves destination → upload.answered = .ok () → s.uploadRound known upload = .next (some datagram.peer)) ∧
    (s.Resolves destination → ∀ text, upload.answered = .error text →
      s.uploadRound known upload = .stop (some datagram.peer) (.error [.message text])) ∧
    (¬ s.Resolves destination → s.disableUdp → s.uploadRound known upload = .next (some datagram.peer)) ∧
    (¬ s.Resolves destination → s.disableUdp = false →
      UdpSession.send s.profile upload.link s.sessionId payload destination = .ok () →
      s.uploadRound known upload = .next (some datagram.peer)) ∧
    (¬ s.Resolves destination → s.disableUdp = false →
      ∀ err, UdpSession.send s.profile upload.link s.sessionId payload destination = .error (.error err) →
      s.uploadRound known upload =
        .stop (some datagram.peer) (.error [.message "SOCKS5 UDP upload failed", .core err])) ∧
    (¬ s.Resolves destination → s.disableUdp = false →
      ∀ why, UdpSession.send s.profile upload.link s.sessionId payload destination = .error (.panic why) →
      s.uploadRound known upload = .stop (some datagram.peer) (.panic why)) := by
  have hresolves : s.Resolves destination ↔
      s.resolver.any (fun resolver => resolver.matchDestination destination = some .plain) := by
    rw [Surroundings.Resolves]
    cases s.resolver <;> simp
  have hown : ¬ known.any (· ≠ datagram.peer) = true := Bool.eq_false_iff.mp hother
  rw [Surroundings.uploadRound, hreceived, hresolves]
  simp only [hparse, if_neg hown]
  refine ⟨fun hyes hanswered => ?_, fun hyes text hanswered => ?_, fun hno hudp => ?_, fun hno hudp hsend => ?_,
    fun hno hudp err hsend => ?_, fun hno hudp why hsend => ?_⟩
  · rw [if_pos hyes, hanswered]
  · rw [if_pos hyes, hanswered]
  · rw [if_neg hno, if_pos hudp]
  all_goals rw [if_neg hno, hudp, hsend]; rfl

theorem Surroundings.uploadRound_client_cases (hreceived : upload.received = .ok datagram)
    (hparse : parseUdpDatagram datagram.received = .ok (some (destination, payload)))
    (hother : known.any (· ≠ datagram.peer) = false) (hclient : client = some datagram.peer) :
    (s.Passed client upload ∧ s.uploadRound known upload = .next (some datagram.peer)) ∨
      (¬ s.Passed client upload ∧ ∃ known' fault, s.uploadRound known upload = .stop known' fault ∧
        (Recovers fault ↔ s.Refused client upload)) := by
  have hdatagram := Upload.datagram_of_parse hreceived hparse
  have hsame {peer : Addr} {destination' : String} {payload' : List UInt8}
      (hsome : upload.datagram = some (peer, destination', payload')) :
      destination = destination' ∧ payload = payload' := by
    have := hdatagram.symm.trans hsome
    simp only [Option.some.injEq, Prod.mk.injEq] at this
    exact this.2
  obtain ⟨hanswer, hunanswered, hoff, hsent, hfailed, hpanicked⟩ := s.uploadRound_of_client hreceived hparse hother
  by_cases hresolves : s.Resolves destination
  · cases hanswered : upload.answered with
    | ok _ =>
      exact .inl ⟨.of_client hreceived hparse (fun _ _ => hanswered) fun _ hnot => absurd hresolves hnot,
        hanswer hresolves hanswered⟩
    | error text =>
      refine .inr ⟨fun hpassed => ?_, _, _, hunanswered hresolves text hanswered,
        iff_of_false (not_recovers_message text) ?_⟩
      · have hok := hpassed.answered _ _ _ hdatagram hclient hresolves
        rw [hanswered] at hok
        cases hok
      · rintro ⟨_, ⟨_, _, _, hsome, -, hnot, -⟩, -⟩
        obtain ⟨rfl, -⟩ := hsame hsome
        exact hnot hresolves
  · cases hudp : s.disableUdp with
    | true =>
      refine .inl ⟨.of_client hreceived hparse (fun _ hyes => absurd hyes hresolves) fun _ _ hno => ?_,
        hoff hresolves hudp⟩
      rw [hudp] at hno
      cases hno
    | false =>
      have hsends : s.Sends client upload ⟨s.sessionId, 0, 0, 1, destination, payload⟩ :=
        ⟨_, _, _, hdatagram, hclient, hresolves, hudp, rfl⟩
      rcases UdpSession.send_cases s.profile upload.link s.sessionId payload destination with
        ⟨hrefused, err, hsend, hreason⟩ | ⟨⟨hrefused, hover⟩, why, hsend⟩ | ⟨htaken, hsend⟩
      · have hrefusal : s.Refused client upload := ⟨_, hsends, hrefused⟩
        exact .inr ⟨fun hpassed => hpassed.not_refused hrefusal, _, _, hfailed hresolves hudp err hsend,
          iff_of_true ⟨_, rfl, hreason⟩ hrefusal⟩
      · refine .inr ⟨fun hpassed => (hpassed.taken _ hsends).2.2 hover, _, _, hpanicked hresolves hudp why hsend,
          iff_of_false ?_ ?_⟩
        · rintro ⟨_, ⟨⟩, -⟩
        · rintro ⟨_, ⟨_, _, _, hsome, -, -, -, rfl⟩, hyes⟩
          obtain ⟨rfl, rfl⟩ := hsame hsome
          exact hrefused hyes
      · exact .inl ⟨.of_client hreceived hparse (fun _ hyes => absurd hyes hresolves) fun _ _ _ => htaken,
          hsent hresolves hudp hsend⟩

theorem Surroundings.uploadRound_none_cases (hnone : upload.datagram = none) :
    (s.Passed client upload ∧ s.uploadRound known upload = .next known) ∨
      (¬ s.Passed client upload ∧ ∃ text, s.uploadRound known upload = .stop known (.error [.message text])) := by
  have hpassed : s.Passed client upload ↔
      ∃ datagram, upload.received = .ok datagram ∧ (parseUdpDatagram datagram.received).isOk := by
    refine ⟨fun h => h.received, fun h => ⟨h, ?_, ?_⟩⟩
    · intro peer destination payload hsome
      rw [hnone] at hsome
      cases hsome
    · rintro message ⟨_, _, _, hsome, -⟩
      rw [hnone] at hsome
      cases hsome
  rw [hpassed, Surroundings.uploadRound]
  rw [Upload.datagram] at hnone
  cases hreceived : upload.received with
  | error text => exact .inr ⟨by simp, text, rfl⟩
  | ok datagram =>
    rw [hreceived] at hnone
    cases hparse : parseUdpDatagram datagram.received with
    | error text =>
      simp only [hparse]
      exact .inr ⟨by simp [hparse, Except.isOk, Except.toBool], text, rfl⟩
    | ok parsed =>
      simp only [hparse] at hnone ⊢
      cases parsed with
      | none => exact .inl ⟨⟨datagram, rfl, by rw [hparse]; rfl⟩, rfl⟩
      | some => cases hnone

theorem Surroundings.uploadRound_cases {uploads : List (Upload Addr)} (h : Knows client known (upload :: uploads)) :
    (s.Passed client upload ∧ ∃ known', s.uploadRound known upload = .next known' ∧ Knows client known' uploads) ∨
      (¬ s.Passed client upload ∧ ∃ known' fault, s.uploadRound known upload = .stop known' fault ∧
        (Recovers fault ↔ s.Refused client upload)) := by
  cases hdatagram : upload.datagram with
  | none =>
    rcases @Surroundings.uploadRound_none_cases _ _ s client known upload hdatagram with
      ⟨hpassed, hround⟩ | ⟨hpassed, text, hround⟩
    · exact .inl ⟨hpassed, known, hround, h.tail hdatagram⟩
    · exact .inr ⟨hpassed, known, _, hround,
        iff_of_false (not_recovers_message text) (s.not_refused_of_none hdatagram)⟩
  | some sent =>
    obtain ⟨datagram, hreceived, hparse⟩ := Upload.parse_of_datagram hdatagram
    have hknown := h.of_some (Upload.datagram_of_parse hreceived hparse)
    cases hother : known.any (· ≠ datagram.peer) with
    | true =>
      -- another peer is passed over
      have hclient : known = client ∧ known.isSome := hknown.resolve_right fun hnone => by
        rw [hnone.1] at hother
        cases hother
      have hne : client ≠ some datagram.peer := by
        rintro rfl
        rw [hclient.1] at hother
        simp at hother
      exact .inl ⟨.of_client hreceived hparse (fun heq => absurd heq hne) fun heq => absurd heq hne, known,
        s.uploadRound_of_other hreceived hparse hother, .inl hclient⟩
    | false =>
      have hclient : client = some datagram.peer := by
        rcases hknown with ⟨rfl, hsome⟩ | ⟨-, hpeer⟩
        · obtain ⟨peer, rfl⟩ := Option.isSome_iff_exists.mp hsome
          simpa using hother
        · exact hpeer
      rcases s.uploadRound_client_cases hreceived hparse hother hclient with ⟨hpassed, hround⟩ | hstop
      · exact .inl ⟨hpassed, _, hround, .inl ⟨hclient.symm, rfl⟩⟩
      · exact .inr hstop

end

theorem Surroundings.reconnects_upload {context : String} :
    Reconnects ((loop s.uploadRound none s.uploads).2.map (joined context)) ↔
      ∃ before upload after, s.uploads = before ++ upload :: after ∧
        (∀ earlier ∈ before, s.Passed s.client earlier) ∧ s.Refused s.client upload := by
  rw [reconnects_joined]
  refine loop_fails_iff (I := Knows s.client) (fun known upload uploads h => s.uploadRound_cases h)
    (fun upload h => h.not_refused) ?_
  exact .inr ⟨rfl, rfl⟩

theorem reconnects_download {context : String} {downloads : List Download} :
    Reconnects ((loop downloadRound () downloads).2.map (joined context)) ↔
      ∃ before download after, downloads = before ++ download :: after ∧
        (∀ earlier ∈ before, earlier.received.isSome ∧ earlier.passedOn = .ok ()) ∧ download.received = none := by
  rw [reconnects_joined]
  refine loop_fails_iff (I := fun _ _ => True) (fun _ download _ _ => ?_) (fun download h hnone => ?_) trivial
  · rw [downloadRound]
    cases hreceived : download.received with
    | none => exact .inr ⟨by simp, (), _, rfl, iff_of_true ⟨_, rfl, rfl⟩ rfl⟩
    | some message =>
      cases hpassed : download.passedOn with
      | error text => exact .inr ⟨by simp, (), _, rfl, iff_of_false (not_recovers_message text) (by simp)⟩
      | ok _ => exact .inl ⟨⟨rfl, rfl⟩, (), rfl, trivial⟩
  · rw [hnone] at h
    cases h.1

theorem Surroundings.reconnects_selected : Reconnects s.selected ↔ s.SessionFails := by
  rw [Surroundings.selected, Surroundings.SessionFails]
  cases s.ended with
  | control result =>
    refine iff_of_false ?_ (by simp)
    match result with
    | .ok () => exact not_reconnects_ok
    | .error text => simp [reconnects_error, connectionRecoveryReason]
  | upload => simpa using s.reconnects_upload
  | download =>
    cases s.disableUdp with
    | true => simp [Reconnects]
    | false => simpa using reconnects_download

omit [DecidableEq Addr] in
theorem Surroundings.Open.plain_openSession (h : s.Open) : Plain s.openSession := by
  rw [Surroundings.openSession, h.managerClosed]
  split
  · exact plain_pure ()
  · cases s.udpEnabled with
    | true => exact plain_pure ()
    | false => exact plain_fail rfl

omit [DecidableEq Addr] in
theorem Surroundings.Open.plain_openAssociation (h : s.Open) : Plain s.openAssociation :=
  (plain_withContext _ _).bind fun _ => (plain_withContext _ _).bind fun _ => h.plain_openSession.bind fun _ =>
    (plain_withContext _ _).bind fun _ => plain_writeReply _ _

theorem Surroundings.Open.reconnects_handleUdpAssociate (h : s.Open) (stream : LocalStream) :
    Reconnects (s.handleUdpAssociate stream) ↔
      (∃ stream', s.openAssociation stream = .ok ((), stream')) ∧ s.SessionFails := by
  rw [Surroundings.handleUdpAssociate, reconnects_proceed h.plain_openAssociation, s.reconnects_selected]
  constructor
  · rintro ⟨⟨⟩, stream', hopen, hfails⟩
    exact ⟨⟨stream', hopen⟩, hfails⟩
  · rintro ⟨⟨stream', hopen⟩, hfails⟩
    exact ⟨(), stream', hopen, hfails⟩

/-- On an open connection a request makes the controller reconnect exactly where its stream is
cut off before the response is complete, and the local client is still there to be told, or
where its UDP session fails. -/
theorem Surroundings.Open.reconnects_iff (h : s.Open) (auth : Option (String × String)) (stream : LocalStream) :
    Reconnects (s.handleClient auth stream) ↔ ∃ request stream', readSocksRequest auth stream = .ok (request, stream') ∧
      ((request.command = socks5CmdConnect ∧
          (∀ resolver ∈ s.resolver, resolver.matchDestination request.address = none) ∧
          s.stream.CutOff s.padding request.address ∧ ∃ stream'', writeReply 4 none stream' = .ok ((), stream'')) ∨
        (request.command = socks5CmdUdpAssociate ∧ shouldAcceptUdpAssociate s.disableUdp s.resolver.isSome ∧
          (∃ stream'', s.openAssociation stream' = .ok ((), stream'')) ∧ s.SessionFails)) := by
  have hcommands : socks5CmdConnect ≠ socks5CmdUdpAssociate := by decide
  rw [Surroundings.handleClient, reconnects_proceed (plain_readSocksRequest auth)]
  refine exists_congr fun request => exists_congr fun stream' => and_congr_right fun _ => ?_
  split
  case isTrue hconnect =>
    rw [h.reconnects_handleConnect, hconnect]
    simp [hcommands]
  case isFalse hconnect =>
    split
    case isTrue hudp =>
      rw [h.reconnects_handleUdpAssociate]
      simp [hudp.1, hudp.2, hcommands.symm]
    case isFalse hudp =>
      refine iff_of_false ?_ ?_
      · rw [reconnects_proceed (plain_writeReply 7 none)]
        rintro ⟨-, -, -, hok⟩
        exact not_reconnects_ok hok
      · rintro (⟨hcommand, -⟩ | ⟨hcommand, haccept, -⟩)
        · exact hconnect hcommand
        · exact hudp ⟨hcommand, haccept⟩

end

def connectToA : LocalStream where
  unread := [5, 1, 0, 5, 1, 0, 3, 1, 97, 0, 80]
  broken := none
  writes := []

def openWith (stream : ProxyStream) : Surroundings Nat where
  profile := ⟨true⟩
  closeReason := none
  padding := ""
  stream
  relay := .ok ()
  resolver := none
  disableUdp := false
  udpEnabled := true
  managerClosed := false
  localAddr := .ok ()
  bind := .ok ()
  listenAddr := .ok []
  sessionId := 1
  uploads := []
  downloads := []
  ended := .control (.ok ())

theorem openWith_open {stream : ProxyStream} (hopened : stream.opened = .ok ())
    (hwritten : stream.written ≠ .error .connectionLost) (hended : stream.ended ≠ some .connectionLost) :
    (openWith stream).Open where
  closeReason := rfl
  opened := hopened
  written := hwritten
  ended := hended
  managerClosed := rfl
  sent := List.forall_mem_nil _

def refusing : ProxyStream := { opened := .ok (), written := .ok (), response := [1, 2, 110, 111, 0], ended := none }

theorem not_reconnects_refused :
    (openWith refusing).Open ∧ ¬ Reconnects ((openWith refusing).handleClient none connectToA) := by
  have hopen : (openWith refusing).Open := openWith_open rfl (by decide) (by decide)
  have hrequest : readSocksRequest none connectToA = .ok (⟨1, "a:80"⟩, ⟨[], none, []⟩) := by decide +kernel
  have hresponse : RuntimeIo.readTcpResponse refusing.response = .ok ((false, "no"), []) := by decide +kernel
  refine ⟨hopen, ?_⟩
  rw [hopen.reconnects_iff, hrequest]
  rintro ⟨request, stream', ⟨⟩, ⟨-, -, hcut, -⟩ | ⟨hcommand, -⟩⟩
  · rcases hcut.2 with hwritten | hread
    · exact hwritten rfl
    · rw [show (openWith refusing).stream.response = refusing.response from rfl, hresponse] at hread
      cases hread
  · revert hcommand
    decide

def cutOff : List ProxyStream :=
  [{ opened := .ok (), written := .ok (), response := [], ended := none },
    { opened := .ok (), written := .ok (), response := [0, 2], ended := some (.reset 7) },
    { opened := .ok (), written := .error (.stopped 7), response := [], ended := none }]

theorem reconnects_cutOff :
    (∀ stream ∈ cutOff, (openWith stream).Open) ∧
      cutOff.map (fun stream => (openWith stream).handleClient none connectToA) =
        [some (.error (.error [.core (.transport "early eof")])),
          some (.error (.error [.core (.transport "stream reset by peer: error 7")])),
          some (.error (.error [.core (.transport "sending stopped by peer: error 7")]))] ∧
      connectionRecoveryReason [.core (.transport "early eof")] =
        some "connection transport failed: early eof" := by
  refine ⟨?_, ?_, rfl⟩
  · simp only [cutOff, List.forall_mem_cons]
    exact ⟨openWith_open rfl (by decide) (by decide), openWith_open rfl (by decide) (by decide),
      openWith_open rfl (by decide) (by decide), List.forall_mem_nil _⟩
  · decide +kernel

end Hysteria.Mobile.LocalSocks
