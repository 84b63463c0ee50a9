import Hysteria.Lib.Transition
import Hysteria.Mobile.Status

/-! The controller of the mobile client. `controller_thread` takes commands from one
channel, which the user interface, the tasks that watch a client and the reconnect
timers all write to. Clients and tasks are numbered in the order in which they come up;
a message in the channel also carries the client its sender watches, which the
controller does not see. Messages to the user interface, and what closing a client or
stopping the Android service does outside, are left out. -/
namespace Hysteria.Mobile
open Lib

structure FormState where
  server : String
  localUdpEnabled : Bool
deriving DecidableEq, Repr

inductive SpeedDirection where
  | download
  | upload
deriving DecidableEq, Repr

inductive AppCommand where
  | connect (form : FormState)
  | startManagedVpn (form : FormState)
  | managedConnect (form : FormState)
  | disconnect
  | speedtest (direction : SpeedDirection)
  | requestVpnPermission
  | stopVpnShell
  | serviceStopped
  | connectionClosed (generation : UInt64) (reason : String)
  | reconnect (generation : UInt64) (attempt : UInt32)
  | transportPulse (generation : UInt64) (metrics : DashboardMetrics)
deriving DecidableEq, Repr

def AppCommand.isUser : AppCommand → Bool
  | .connectionClosed .. | .reconnect .. | .transportPulse .. => false
  | _ => true

structure Message where
  command : AppCommand
  sender : Option Nat
deriving DecidableEq, Repr

inductive TaskKind where
  | closeWatch
  | transportWatch (previous : Option TransportSample)
  | healthProbe (failures : UInt32)
  | localSocks
  | socksConnection
deriving DecidableEq, Repr

inductive TaskStatus where
  | idle
  | polling
  | finished
deriving DecidableEq, Repr

/-- A task that watches a client. An aborted task finishes the poll it is in but is not
polled again. -/
structure Task where
  kind : TaskKind
  client : Nat
  generation : UInt64
  status : TaskStatus
  aborted : Bool
deriving DecidableEq, Repr

def spawn (kind : TaskKind) (client : Nat) (generation : UInt64) : Task where
  kind := kind
  client := client
  generation := generation
  status := .idle
  aborted := false

inductive TaskEvent where
  | poll
  | yield
  | closed (reason : String)
  | sample (current : TransportSample)
  | probe (result : Except String Unit)
  | accept
  | listenerFails
  | handled (reason : Option String)

def healthProbeFailureThreshold : UInt32 := 2

def saturatingSucc (n : UInt32) : UInt32 := if n = 0xFFFFFFFF then n else n + 1

namespace Task

def send (task : Task) (command : AppCommand) : Message := ⟨command, some task.client⟩

def connectionClosed (task : Task) (reason : String) : Message :=
  task.send (.connectionClosed task.generation reason)

def finish (task : Task) : Task := { task with status := .finished }

/-- A step of a task: what becomes of it, the messages it sends and the tasks it
spawns. -/
def step (task : Task) (event : TaskEvent) : Option (Task × List Message × List Task) :=
  match event, task.status with
  | .poll, .idle => if task.aborted then none else some ({ task with status := .polling }, [], [])
  | .yield, .polling => some ({ task with status := .idle }, [], [])
  | event, .polling =>
    match event, task.kind with
    | .closed reason, .closeWatch => some (task.finish, [task.connectionClosed reason], [])
    | .sample current, .transportWatch previous =>
      let metrics := deriveDashboardMetrics previous current
      some ({ task with kind := .transportWatch (some current) },
        [task.send (.transportPulse task.generation metrics)], [])
    | .probe (.ok ()), .healthProbe _ => some ({ task with kind := .healthProbe 0 }, [], [])
    | .probe (.error err), .healthProbe failures =>
      let failures := saturatingSucc failures
      if failures ≥ healthProbeFailureThreshold then
        some (task.finish, [task.connectionClosed s!"health probe failed: {err}"], [])
      else some ({ task with kind := .healthProbe failures }, [], [])
    -- The connection's task is detached: nobody keeps its handle.
    | .accept, .localSocks => some (task, [], [spawn .socksConnection task.client task.generation])
    | .listenerFails, .localSocks => some (task.finish, [], [])
    | .handled (some reason), .socksConnection =>
      some (task.finish, [task.connectionClosed reason], [])
    | .handled none, .socksConnection => some (task.finish, [], [])
    | _, _ => none
  | _, _ => none

end Task

structure Connected where
  remote : String
  udpEnabled : Bool
  localUdpEnabled : Bool
  tx : UInt64
  snapshot : TransportSample

def Connected.status (connected : Connected) : UiStatus :=
  { UiStatus.default with
    phase := .connected
    remote := connected.remote
    detail := "Client connected. Local SOCKS is ready and Android system VPN can be started."
    serverUdpSupported := connected.udpEnabled
    localUdpEnabled := connected.localUdpEnabled
    udpEnabled := connected.udpEnabled && connected.localUdpEnabled
    negotiatedTx := connected.tx }

/-- What the Android side answers while a command is handled. -/
structure Bridge where
  vpn : VpnState
  permission : Except String Unit
  managedVpn : Except String Unit
  vpnRuntime : Except String Unit

/-- The command during which the controller is blocked on `connect_client`. -/
inductive Purpose where
  | connect
  | managedConnect
  | reconnect (attempt : UInt32)
deriving DecidableEq, Repr

structure Controller where
  currentClient : Option Nat
  connectedStatus : UiStatus
  localSocksTask : Option Nat
  tun2socksRunning : Bool
  closeWatchTask : Option Nat
  transportWatchTask : Option Nat
  healthProbeTask : Option Nat
  currentGeneration : UInt64
  reconnectForm : Option FormState
  desiredVpnActive : Bool

structure System where
  controller : Controller
  connecting : Option (Purpose × FormState)
  channel : List Message
  tasks : List Task
  timers : List (UInt64 × UInt32)
  clients : Nat

inductive Event where
  | user (command : AppCommand)
  | task (n : Nat) (event : TaskEvent)
  | timer (i : Nat)
  | receive (bridge : Bridge)
  | connected (result : Except String Connected) (bridge : Bridge)

def shouldRunHealthProbe (phase : Phase) : Bool := phase = .connected

def shouldPreserveTun2socksOnConnectionLoss (desiredVpnActive : Bool) : Bool := desiredVpnActive

def shouldRestartTun2socksAfterReconnect (desiredVpnActive tun2socksRunning : Bool) : Bool :=
  desiredVpnActive && !tun2socksRunning

def maxReconnectBackoff : Nat := 15

def reconnectDelay (attempt : UInt32) : Nat :=
  min (1 <<< min attempt.toNat 4) maxReconnectBackoff

namespace System

def new (vpn : VpnState) : System where
  controller :=
    { currentClient := none
      connectedStatus := UiStatus.default.withVpnState vpn
      localSocksTask := none
      tun2socksRunning := false
      closeWatchTask := none
      transportWatchTask := none
      healthProbeTask := none
      currentGeneration := 0
      reconnectForm := none
      desiredVpnActive := false }
  connecting := none
  channel := []
  tasks := []
  timers := []
  clients := 0

def abort (tasks : List Task) (handle : Option Nat) : List Task :=
  match handle with
  | some n => tasks.modify n ({ · with aborted := true })
  | none => tasks

/-- The generation is a `u64` that wraps. -/
def nextGeneration (s : System) : System :=
  { s with controller.currentGeneration := s.controller.currentGeneration + 1 }

def setStatus (s : System) (status : UiStatus) : System :=
  { s with controller.connectedStatus := status }

def setDesired (s : System) (vpnActive : Bool) (form : Option FormState) : System :=
  { s with controller.desiredVpnActive := vpnActive, controller.reconnectForm := form }

def stopActiveSession (s : System) (stopLocalSocksRuntime stopTun2socksRuntime : Bool) : System :=
  let controller := s.controller
  let tasks := abort (abort (abort s.tasks controller.closeWatchTask)
    controller.transportWatchTask) controller.healthProbeTask
  { s with
    tasks := if stopLocalSocksRuntime then abort tasks controller.localSocksTask else tasks
    controller := { controller with
      currentClient := none
      localSocksTask := if stopLocalSocksRuntime then none else controller.localSocksTask
      tun2socksRunning := if stopTun2socksRuntime then false else controller.tun2socksRunning
      closeWatchTask := none
      transportWatchTask := none
      healthProbeTask := none } }

def scheduleReconnect (s : System) (generation : UInt64) (attempt : UInt32) : System :=
  { s with timers := s.timers ++ [(generation, attempt)] }

/-- The new client gets the next number, and its tasks the next ones. The handles of
earlier tasks are overwritten, which does not stop those tasks. -/
def activateConnection (s : System) (form : FormState) (connected : Connected)
    (vpn : VpnState) : System :=
  let client := s.clients
  let n := s.tasks.length
  let generation := s.controller.currentGeneration
  let probe := shouldRunHealthProbe connected.status.phase
  let status := { connected.status.withVpnState vpn with localSocks := Mobile.localSocks }
  { s with
    clients := client + 1
    tasks := s.tasks ++ [spawn .localSocks client generation, spawn .closeWatch client generation,
      spawn (.transportWatch none) client generation] ++
      (if probe then [spawn (.healthProbe 0) client generation] else [])
    controller := { s.controller with
      currentClient := some client
      connectedStatus :=
        applyDashboardMetrics status (deriveDashboardMetrics none connected.snapshot)
      localSocksTask := some n
      closeWatchTask := some (n + 1)
      transportWatchTask := some (n + 2)
      healthProbeTask := if probe then some (n + 3) else none
      reconnectForm := some form } }

def setDetail (s : System) (detail : String) : System :=
  s.setStatus { s.controller.connectedStatus with detail := detail }

def setTun2socks (s : System) (running : Bool) : System :=
  { s with controller.tun2socksRunning := running }

/-- What the controller does with a command, up to the point where it waits for
`connect_client`. -/
def handle (s : System) (bridge : Bridge) : AppCommand → System
  | .connect form =>
    { (s.nextGeneration.setDesired false none).stopActiveSession true true with
      connecting := some (.connect, form) }
  | .startManagedVpn form =>
    let stopped := (s.nextGeneration.setDesired true (some form)).stopActiveSession true true
    match bridge.managedVpn with
    | .ok () => stopped.setStatus ({ UiStatus.default with
        phase := .startingVpn
        detail := "Android system VPN requested. The service will own connect/reconnect."
        localSocks := Mobile.localSocks }.withVpnState bridge.vpn)
    | .error err => (stopped.setDesired false none).setStatus
        ({ UiStatus.default with phase := .error, detail := err }.withVpnState bridge.vpn)
  | .managedConnect form =>
    { (s.nextGeneration.setDesired true (some form)).stopActiveSession true true with
      connecting := some (.managedConnect, form) }
  | .disconnect | .serviceStopped =>
    ((s.nextGeneration.setDesired false none).stopActiveSession true true).setStatus
      (UiStatus.default.withVpnState bridge.vpn)
  | .speedtest _ => s
  | .requestVpnPermission =>
    match bridge.permission with
    | .ok () => s.setStatus (s.controller.connectedStatus.withVpnState bridge.vpn)
    | .error _ => s
  | .stopVpnShell =>
    let stopped := (s.setDesired false s.controller.reconnectForm).setTun2socks false
    let stopped := stopped.setDetail "Stopping Android system VPN..."
    stopped.setStatus (stopped.controller.connectedStatus.withVpnState bridge.vpn)
  | .connectionClosed generation reason =>
    if generation ≠ s.controller.currentGeneration ∨ s.controller.currentClient = none then s
    else
      let restartVpn := s.controller.desiredVpnActive
      let detail := if restartVpn then
          s!"Connection lost: {reason}. Reconnecting soon while keeping Android VPN shell alive..."
        else s!"Connection lost: {reason}. Reconnecting soon..."
      let stopped := s.stopActiveSession true (!shouldPreserveTun2socksOnConnectionLoss restartVpn)
      (stopped.setStatus ((s.controller.connectedStatus.reconnecting detail).withVpnState
        bridge.vpn)).scheduleReconnect generation 0
  | .reconnect generation attempt =>
    if generation ≠ s.controller.currentGeneration then s
    else match s.controller.reconnectForm with
      | some form => { s with connecting := some (.reconnect attempt, form) }
      | none => s
  | .transportPulse generation metrics =>
    if generation ≠ s.controller.currentGeneration ∨ s.controller.currentClient = none then s
    else s.setStatus (applyDashboardMetrics s.controller.connectedStatus metrics)

def afterActivation (s : System) (bridge : Bridge) : Purpose → System
  | .connect => s
  | .managedConnect =>
    let active := match bridge.vpnRuntime with
      | .ok () => (s.setTun2socks true).setDetail
          "Android VpnService now owns the managed runtime: TUN -> tun2socks -> local SOCKS -> hysteria-core"
      | .error err => (s.setTun2socks false).setDetail
          s!"Managed runtime connected, but Android VPN shell attach failed: {err}"
    active.setStatus (active.controller.connectedStatus.withVpnState bridge.vpn)
  | .reconnect _ =>
    if shouldRestartTun2socksAfterReconnect s.controller.desiredVpnActive
        s.controller.tun2socksRunning then
      match bridge.vpnRuntime with
      | .ok () => (s.setTun2socks true).setDetail
          "Automatic reconnect restored Android system VPN: TUN -> tun2socks -> local SOCKS -> hysteria-core"
      | .error err => s.setDetail s!"Reconnected, but Android system VPN restart failed: {err}"
    else if s.controller.desiredVpnActive then
      let active := s.setDetail
        "Automatic reconnect preserved Android system VPN shell and local DNS path"
      active.setStatus (active.controller.connectedStatus.withVpnState bridge.vpn)
    else s

def connectFailed (s : System) (bridge : Bridge) (err : String) : Purpose → System
  | .connect => s
  | .managedConnect => s.setStatus
      ({ UiStatus.default with phase := .error, detail := err }.withVpnState bridge.vpn)
  | .reconnect attempt =>
    let detail := s!"Reconnect attempt {attempt + 1} failed: {err}. Retrying in {reconnectDelay (attempt + 1)}s."
    (s.setStatus ((s.controller.connectedStatus.reconnecting detail).withVpnState
      bridge.vpn)).scheduleReconnect s.controller.currentGeneration (attempt + 1)

def step (s : System) : Event → Option System
  | .user command =>
    if command.isUser then some { s with channel := s.channel ++ [⟨command, none⟩] } else none
  | .task n event =>
    match s.tasks[n]? with
    | some task =>
      match task.step event with
      | some (after, messages, spawned) => some { s with
          tasks := s.tasks.set n after ++ spawned
          channel := s.channel ++ messages }
      | none => none
    | none => none
  | .timer i =>
    match s.timers[i]? with
    | some (generation, attempt) => some { s with
        timers := s.timers.eraseIdx i
        channel := s.channel ++ [⟨.reconnect generation attempt, none⟩] }
    | none => none
  | .receive bridge =>
    match s.connecting, s.channel with
    | none, message :: rest => some ({ s with channel := rest }.handle bridge message.command)
    | _, _ => none
  | .connected result bridge =>
    match s.connecting with
    | some (purpose, form) =>
      let s := { s with connecting := none }
      match result with
      | .ok connected =>
        some ((s.activateConnection form connected bridge.vpn).afterActivation bridge purpose)
      | .error err => some (s.connectFailed bridge err purpose)
    | none => none

end System
end Hysteria.Mobile
