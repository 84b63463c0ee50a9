import Hysteria.Lib.PartialMap
import Hysteria.Lib.Table
import Hysteria.Lib.Transition

/-! The UDP forwarder of `udp_forwarding.rs`. Three kinds of tasks share a map from
peer addresses to sessions: the receive loop, which creates and feeds sessions, one
receive task for each session, and the cleanup loop. Each acquisition of the map's
lock is one step; all of them find a session by its peer address. -/
namespace Hysteria.App
open Lib

/-- Where the receive task of a session stands. `removing` is past its loop, `dropping`
has taken the peer's entry out of the map and still owns its clone of the tunnel. -/
inductive ReceivePhase where
  | receiving
  | touching
  | sending
  | failing
  | removing
  | dropping
  | finished
deriving DecidableEq, Repr

/-- A session with the state of its receive task. The tunnel is closed by `close` and
by the drop of any of its clones. -/
structure UdpForwardSession (Peer : Type) where
  peer : Peer
  tunnelClosed : Bool
  lastActivity : Nat
  timedOut : Bool
  receiveTask : ReceivePhase
deriving DecidableEq, Repr

/-- Where the receive loop stands; sessions are numbered as they are created. -/
inductive MainPhase (Peer : Type) where
  | waiting
  | creating (peer : Peer)
  | inserting (peer : Peer) (session : Nat)
  | feeding (peer : Peer) (session : Nat)
  | removing (peer : Peer) (session : Nat)
  | closing (session : Nat)
  | stopped
  | done
deriving DecidableEq, Repr

/-- Where the cleanup loop stands: the rest of its snapshot and the sessions found
expired, then those still to be closed. -/
inductive CleanupPhase where
  | waiting
  | examining (snapshot expired : List Nat)
  | removing (session : Nat) (expired : List Nat)
  | closing (session : Nat) (expired : List Nat)
  | aborted
deriving DecidableEq, Repr

def MainPhase.held {Peer : Type} : MainPhase Peer → Option Nat
  | .inserting _ n | .feeding _ n | .removing _ n | .closing n => some n
  | _ => none

def CleanupPhase.held : CleanupPhase → List Nat
  | .examining snapshot expired => snapshot ++ expired
  | .removing n expired | .closing n expired => n :: expired
  | _ => []

structure UdpForwarder (Peer : Type) where
  sessions : PartialMap Peer Nat
  created : List (UdpForwardSession Peer)
  connected : Bool
  main : MainPhase Peer
  cleanup : CleanupPhase

namespace UdpForwardSession

variable {Peer : Type}

def touch (session : UdpForwardSession Peer) (now : Nat) : UdpForwardSession Peer :=
  { session with lastActivity := now }

def isIdle (session : UdpForwardSession Peer) (now timeout : Nat) : Bool :=
  now - session.lastActivity > timeout

def markTimedOut (session : UdpForwardSession Peer) : UdpForwardSession Peer :=
  { session with timedOut := true }

def close (session : UdpForwardSession Peer) : UdpForwardSession Peer :=
  { session with tunnelClosed := true }

def enter (phase : ReceivePhase) (session : UdpForwardSession Peer) : UdpForwardSession Peer :=
  { session with receiveTask := phase }

end UdpForwardSession

namespace UdpForwarder

variable {Peer : Type} [DecidableEq Peer]

def new : UdpForwarder Peer where
  sessions := .empty
  created := []
  connected := true
  main := .waiting
  cleanup := .waiting

def update (s : UdpForwarder Peer) (n : Nat)
    (f : UdpForwardSession Peer → UdpForwardSession Peer) : UdpForwarder Peer :=
  { s with created := s.created.modify n f }

def isEntry (s : UdpForwarder Peer) (n : Nat) : Bool :=
  match s.created[n]? with
  | some session => s.sessions.get session.peer = some n
  | none => false

def entries (s : UdpForwarder Peer) : List Nat := (List.range s.created.length).filter s.isEntry

inductive Event (Peer : Type) where
  | packet (peer : Peer)
  | create (now : Nat) (tunnelOpens : Bool)
  | insert
  | feed (now : Nat) (sent : Bool)
  | mainRemove
  | mainClose
  | stop
  | drain
  | disconnect
  | payload (session : Nat)
  | touch (session now : Nat)
  | sendBack (session : Nat) (sent : Bool)
  | receiveFails (session : Nat)
  | log (session : Nat)
  | removeEntry (session : Nat)
  | finish (session : Nat)
  | dropSession (session : Nat)
  | snapshot (order : List Nat)
  | examine (now : Nat)
  | expireNext
  | cleanupRemove
  | cleanupClose
  | cleanupDone

/-- The steps of the receive loop of `serve_udp_forwarder`, with `get_or_create_session`
and `close_session`. The receive task of a session starts when it is created, before
the session is in the map. -/
def stepMain (s : UdpForwarder Peer) : Event Peer → Option (UdpForwarder Peer)
  | .packet peer =>
    match s.main, s.sessions.get peer with
    | .waiting, some n => some { s with main := .feeding peer n }
    | .waiting, none => some { s with main := .creating peer }
    | _, _ => none
  | .create now tunnelOpens =>
    match s.main with
    | .creating peer =>
      if tunnelOpens then some { s with
        created := s.created ++ [⟨peer, false, now, false, .receiving⟩]
        main := .inserting peer s.created.length }
      else some { s with main := .stopped }
    | _ => none
  | .insert =>
    match s.main with
    | .inserting peer n => some { s with
        sessions := s.sessions.insert peer n
        main := .feeding peer n }
    | _ => none
  | .feed now sent =>
    match s.main with
    | .feeding peer n =>
      match s.created[n]? with
      | some session =>
        -- `send` fails on a closed tunnel, and on a lost connection.
        let main := if !session.tunnelClosed && s.connected && sent then .waiting
          else .removing peer n
        some { s.update n (·.touch now) with main }
      | none => none
    | _ => none
  | .mainRemove =>
    match s.main with
    | .removing peer n => some { s with sessions := s.sessions.remove peer, main := .closing n }
    | _ => none
  | .mainClose =>
    match s.main with
    | .closing n => some { s.update n (·.close) with main := .waiting }
    | _ => none
  | .stop =>
    match s.main with
    | .waiting => some { s with main := .stopped }
    | _ => none
  | .drain =>
    match s.main with
    | .stopped => some { s with
        sessions := .empty
        created := s.created.mapIdx fun n session => if s.isEntry n then session.close else session
        main := .done
        cleanup := .aborted }
    | _ => none
  | .disconnect => some { s with connected := false }
  | _ => none

def advance (s : UdpForwarder Peer) (n : Nat) (before after : ReceivePhase) :
    Option (UdpForwarder Peer) :=
  match s.created[n]? with
  | some session => if session.receiveTask = before then some (s.update n (·.enter after)) else none
  | none => none

/-- The steps of a receive task, and the drop of a session that nobody holds. -/
def stepReceive (s : UdpForwarder Peer) : Event Peer → Option (UdpForwarder Peer)
  | .payload n => s.advance n .receiving .touching
  | .touch n now =>
    match s.created[n]? with
    | some session =>
      match s.sessions.get session.peer with
      | some m => (s.update m (·.touch now)).advance n .touching .sending
      | none => s.advance n .touching .sending
    | none => none
  | .sendBack n sent => s.advance n .sending (if sent then .receiving else .removing)
  | .receiveFails n =>
    match s.created[n]? with
    | some session =>
      if session.tunnelClosed || !s.connected then s.advance n .receiving .failing else none
    | none => none
  | .log n => s.advance n .failing .removing
  | .removeEntry n =>
    match s.created[n]? with
    | some session =>
      match s.sessions.get session.peer with
      | some m => ({ s with sessions := s.sessions.remove session.peer }.update m (·.close)).advance n
          .removing .dropping
      | none => s.advance n .removing .dropping
    | none => none
  | .finish n => (s.update n (·.close)).advance n .dropping .finished
  | .dropSession n =>
    if s.isEntry n || s.main.held = some n || s.cleanup.held.contains n then none
    else some (s.update n (·.close))
  | _ => none

/-- The steps of `idle_cleanup_loop`, with `close_session`. -/
def stepCleanup (timeout : Nat) (s : UdpForwarder Peer) : Event Peer → Option (UdpForwarder Peer)
  | .snapshot order =>
    match s.cleanup with
    | .waiting =>
      if order.isPerm s.entries then some { s with cleanup := .examining order [] } else none
    | _ => none
  | .examine now =>
    match s.cleanup with
    | .examining (n :: rest) expired =>
      match s.created[n]? with
      | some session =>
        let expired := if session.isIdle now timeout then expired ++ [n] else expired
        some { s with cleanup := .examining rest expired }
      | none => none
    | _ => none
  | .expireNext =>
    match s.cleanup with
    | .examining [] (n :: expired) =>
      match s.created[n]? with
      | some session =>
        if session.timedOut then some { s with cleanup := .examining [] expired }
        else some { s.update n (·.markTimedOut) with cleanup := .removing n expired }
      | none => none
    | _ => none
  | .cleanupRemove =>
    match s.cleanup with
    | .removing n expired =>
      match s.created[n]? with
      | some session => some { s with
          sessions := s.sessions.remove session.peer
          cleanup := .closing n expired }
      | none => none
    | _ => none
  | .cleanupClose =>
    match s.cleanup with
    | .closing n expired => some { s.update n (·.close) with cleanup := .examining [] expired }
    | _ => none
  | .cleanupDone =>
    match s.cleanup with
    | .examining [] [] => some { s with cleanup := .waiting }
    | _ => none
  | _ => none

def step (timeout : Nat) (s : UdpForwarder Peer) (event : Event Peer) :
    Option (UdpForwarder Peer) :=
  (s.stepMain event).orElse fun _ => (s.stepReceive event).orElse fun _ =>
    s.stepCleanup timeout event

end UdpForwarder
end Hysteria.App
