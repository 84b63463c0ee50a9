import Hysteria.Core.TcpTunnelSafety

/-! A connection of a local program to a listener of the client, from end to end: the listener reads
what the program asks for, opens a stream of the tunnel, answers, and copies in both directions. What
it reads and answers differs from one listener to the other and is a parameter, its front. All the
parties, those of the tunnel included, take turns in any order. -/
namespace Hysteria.App
open Lib Hysteria.Core

/-- What a front makes of the bytes it has read. It answers and goes on or returns; it opens a stream,
with an answer for either outcome and the bytes it has read too far; or the connection is not one to
be copied and is served in another way. -/
inductive Reaction (σ : Type) where
  | answer (bytes : List UInt8) (next : Option σ)
  | connect (addr : String) (accepted refused ahead : List UInt8)
  | leave

/-- A read sees the bytes that have arrived, whether the program has shut down behind them, and how
many of them the socket hands over at most. It returns the number of those it takes. -/
structure Front (σ : Type) where
  start : σ
  read : σ → List UInt8 → Bool → Nat → Option (Reaction σ × Nat)

inductive Proxying (σ : Type) where
  | reading (state : σ)
  | answering (unsent : List UInt8) (next : Option σ)
  | dialing (addr : String) (accepted refused ahead : List UInt8)
  | opening (accepted refused ahead : List UInt8)
  | accepting (unsent ahead : List UInt8)
  | forwarding (ahead : List UInt8)
  | relaying
  | refusing (unsent : List UInt8)
  | left
  | closed

structure Opened where
  exchange : TcpExchange
  tunnel : TcpTunnel

/-- The two pipes of the connection, and the buffers of the two copies. A copy writes what it has
read, so that its buffer is a pipe as well. -/
structure LocalProxy (σ : Type) where
  stage : Proxying σ
  fromLocal : Pipe UInt8
  toLocal : Pipe UInt8
  opened : Option Opened
  upload : Pipe UInt8
  download : Pipe UInt8

/-- The buffer of each direction of `tokio::io::copy_bidirectional`. -/
def copyBufferSize : Nat := 8 * 1024

inductive CallEvent where
  | writes (n : Nat)
  | reads
  | fails (text : String)

def CallEvent.event : CallEvent → TcpTunnel.Event
  | .writes n => .callerWrites n
  | .reads => .callerReads
  | .fails text => .callerFails text

def Opened.dropped (o : Opened) : Opened :=
  match o.tunnel.caller with
  | .requesting _ => { o with tunnel := { o.tunnel.finished with caller := .failed (.transport "dropped") } }
  | .connected _ _ => { o with tunnel := o.tunnel.finished }
  | .failed _ => o

def Opened.step (o : Opened) (event : TcpTunnel.Event) : Option Opened :=
  (o.tunnel.step o.exchange event).map fun tunnel => { o with tunnel }

def Opened.incoming (o : Opened) : Pipe UInt8 := o.tunnel.stream.downward.sink

namespace LocalProxy
variable {σ : Type}

/-- The first three are the program's, `served` is the server's and the remote's. -/
inductive Event where
  | localWrites (bytes : List UInt8)
  | localShutsDown
  | localReads (n : Nat)
  | reads (room : Nat)
  | writes (n : Nat)
  | opens (x : TcpExchange)
  | calls (event : CallEvent)
  | served (event : ServedStream.Event)
  | returned
  | forwards (n : Nat)
  | uploadReads (n : Nat)
  | uploadEnds
  | uploadWrites (n : Nat)
  | uploadShutsDown
  | downloadReads (n : Nat)
  | downloadEnds
  | downloadWrites (n : Nat)
  | downloadShutsDown
  | relayed
  | fails

def start (front : Front σ) : LocalProxy σ := ⟨.reading front.start, .empty, .empty, none, .empty, .empty⟩

def close (p : LocalProxy σ) : LocalProxy σ :=
  { p with stage := .closed, toLocal := p.toLocal.finish, opened := p.opened.map Opened.dropped }

def react (p : LocalProxy σ) : Reaction σ → LocalProxy σ
  | .answer bytes next => { p with stage := .answering bytes next }
  | .connect addr accepted refused ahead => { p with stage := .dialing addr accepted refused ahead }
  | .leave => { p with stage := .left }

def say (p : LocalProxy σ) (bytes : List UInt8) (stage : Proxying σ) : LocalProxy σ :=
  { p with stage, toLocal := p.toLocal.write bytes }

def settle (p : LocalProxy σ) : LocalProxy σ :=
  match p.stage with
  | .answering [] (some state) => { p with stage := .reading state }
  | .answering [] none => p.close
  | .accepting [] [] => { p with stage := .relaying }
  | .accepting [] ahead => { p with stage := .forwarding ahead }
  | .forwarding [] => { p with stage := .relaying }
  | .refusing [] => p.close
  | _ => p

def advance (p : LocalProxy σ) (event : TcpTunnel.Event) : Option (LocalProxy σ) :=
  match p.opened with
  | some o => (o.step event).map fun o => { p with opened := some o }
  | none => none

def isOpening (p : LocalProxy σ) : Bool :=
  match p.stage with
  | .opening _ _ _ => true
  | _ => false

def isRelaying (p : LocalProxy σ) : Bool :=
  match p.stage with
  | .relaying => true
  | _ => false

def writes (p : LocalProxy σ) (n : Nat) : Option (LocalProxy σ) :=
  match p.stage with
  | .answering unsent next =>
    if 0 < n ∧ n ≤ unsent.length then some (p.say (unsent.take n) (.answering (unsent.drop n) next)) else none
  | .accepting unsent ahead =>
    if 0 < n ∧ n ≤ unsent.length then some (p.say (unsent.take n) (.accepting (unsent.drop n) ahead)) else none
  | .refusing unsent =>
    if 0 < n ∧ n ≤ unsent.length then some (p.say (unsent.take n) (.refusing (unsent.drop n))) else none
  | _ => none

def returned (p : LocalProxy σ) : Option (LocalProxy σ) :=
  match p.stage, p.opened with
  | .opening accepted refused ahead, some o =>
    match o.tunnel.caller with
    | .requesting _ => none
    | .connected _ _ => some { p with stage := .accepting accepted ahead }
    | .failed _ => some { p with stage := .refusing refused }
  | _, _ => none

def forwards (p : LocalProxy σ) (n : Nat) : Option (LocalProxy σ) :=
  match p.stage with
  | .forwarding ahead =>
    if 0 < n ∧ n ≤ ahead.length then
      (p.advance (.appWrites (ahead.take n))).map fun p => { p with stage := .forwarding (ahead.drop n) }
    else none
  | _ => none

/-- The upward direction of `copy_bidirectional`. -/
def uploads (p : LocalProxy σ) : Event → Option (LocalProxy σ)
  | .uploadReads n =>
    if 0 < n ∧ n ≤ p.fromLocal.pending.length ∧ p.upload.pending.length + n ≤ copyBufferSize then
      some { p with fromLocal := p.fromLocal.take n, upload := p.upload.write (p.fromLocal.pending.take n) }
    else none
  | .uploadEnds =>
    if p.fromLocal.pending = [] ∧ p.fromLocal.finished then some { p with upload := p.upload.finish } else none
  | .uploadWrites n =>
    if 0 < n ∧ n ≤ p.upload.pending.length then
      (p.advance (.appWrites (p.upload.pending.take n))).map fun p => { p with upload := p.upload.take n }
    else none
  | .uploadShutsDown => if p.upload.pending = [] ∧ p.upload.finished then p.advance .appShutsDown else none
  | _ => none

def downloads (p : LocalProxy σ) (o : Opened) : Event → Option (LocalProxy σ)
  | .downloadReads n =>
    if 0 < n ∧ n ≤ o.incoming.pending.length ∧ p.download.pending.length + n ≤ copyBufferSize then
      (p.advance (.appReads n)).map fun p => { p with download := p.download.write (o.incoming.pending.take n) }
    else none
  | .downloadEnds =>
    if o.incoming.pending = [] ∧ o.incoming.finished then some { p with download := p.download.finish } else none
  | .downloadWrites n =>
    if 0 < n ∧ n ≤ p.download.pending.length then
      some { p with toLocal := p.toLocal.write (p.download.pending.take n), download := p.download.take n }
    else none
  | .downloadShutsDown =>
    if p.download.pending = [] ∧ p.download.finished then some { p with toLocal := p.toLocal.finish } else none
  | .relayed => if p.toLocal.finished ∧ o.tunnel.stream.upward.source.finished then some p.close else none
  | _ => none

def turn (front : Front σ) (p : LocalProxy σ) : Event → Option (LocalProxy σ)
  | .localWrites bytes =>
    if ¬ p.fromLocal.finished then some { p with fromLocal := p.fromLocal.write bytes } else none
  | .localShutsDown => some { p with fromLocal := p.fromLocal.finish }
  | .localReads n => some { p with toLocal := p.toLocal.take n }
  | .reads room =>
    match p.stage with
    | .reading state =>
      (front.read state p.fromLocal.pending p.fromLocal.finished room).map fun (reaction, n) =>
        { p with fromLocal := p.fromLocal.take n }.react reaction
    | _ => none
  | .writes n => p.writes n
  | .opens x =>
    match p.stage with
    | .dialing addr accepted refused ahead =>
      if x.addr = addr then
        (TcpTunnel.start x).map fun tunnel =>
          { p with stage := .opening accepted refused ahead, opened := some ⟨x, tunnel⟩ }
      else none
    | _ => none
  | .calls event => if p.isOpening then p.advance event.event else none
  | .served event => p.advance (.server event)
  | .returned => p.returned
  | .forwards n => p.forwards n
  | .fails =>
    match p.stage with
    | .left => none
    | .closed => none
    | _ => some p.close
  | event =>
    match p.isRelaying, p.opened with
    | true, some o => (p.uploads event).or (p.downloads o event)
    | _, _ => none

def step (front : Front σ) (p : LocalProxy σ) (event : Event) : Option (LocalProxy σ) := (p.turn front event).map settle

def runs (front : Front σ) (events : List Event) : Option (LocalProxy σ) := run (step front) (start front) events

def sampleExchange : TcpExchange where
  addr := "a:80"
  requestPadding := String.ofList (List.replicate 64 'v')
  config := ⟨false, String.ofList (List.replicate 128 'u'), by decide +kernel⟩
  fits := by decide +kernel
  draws := by decide +kernel

end LocalProxy
end Hysteria.App
