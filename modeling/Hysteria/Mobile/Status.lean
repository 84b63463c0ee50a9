import Mathlib.Algebra.Group.Nat.Defs
import Mathlib.Tactic.Common

/-! The status shown by the mobile client and the transport metrics in it. Durations
are in nanoseconds. -/
namespace Hysteria.Mobile

def localSocks : String := "127.0.0.1:1080"

inductive Phase where
  | disconnected
  | startingVpn
  | connected
  | reconnecting
  | error
deriving DecidableEq, Repr

structure UiStatus where
  phase : Phase
  remote : String
  detail : String
  serverUdpSupported : Bool
  localUdpEnabled : Bool
  udpEnabled : Bool
  negotiatedTx : UInt64
  latency : Option Nat
  txTotalBytes : UInt64
  rxTotalBytes : UInt64
  txRateBytes : UInt64
  rxRateBytes : UInt64
  localSocks : String
  vpnAvailable : Bool
  vpnPermissionGranted : Bool
  vpnActive : Bool
deriving DecidableEq, Repr

def UiStatus.default : UiStatus where
  phase := .disconnected
  remote := ""
  detail := "Import a Linux-compatible config or fill server/auth, then connect. Explicit CA is optional."
  serverUdpSupported := false
  localUdpEnabled := true
  udpEnabled := false
  negotiatedTx := 0
  latency := none
  txTotalBytes := 0
  rxTotalBytes := 0
  txRateBytes := 0
  rxRateBytes := 0
  localSocks := Mobile.localSocks
  vpnAvailable := false
  vpnPermissionGranted := false
  vpnActive := false

structure VpnState where
  available : Bool
  permissionGranted : Bool
  active : Bool
deriving DecidableEq, Repr

def UiStatus.withVpnState (status : UiStatus) (vpn : VpnState) : UiStatus :=
  { status with
    vpnAvailable := vpn.available
    vpnPermissionGranted := vpn.permissionGranted
    vpnActive := vpn.active }

structure TransportSample where
  rtt : Nat
  txBytes : UInt64
  rxBytes : UInt64
deriving DecidableEq, Repr

structure DashboardMetrics where
  latency : Option Nat
  txTotalBytes : UInt64
  rxTotalBytes : UInt64
  txRateBytes : UInt64
  rxRateBytes : UInt64
deriving DecidableEq, Repr

/-- The conversion of an integer to `f64` and back: 53 bits are kept, ties go to the
even neighbour, and the way back saturates. -/
def throughF64 (n : UInt64) : UInt64 :=
  let unit := 2 ^ (Nat.log2 n.toNat - 52)
  let kept := n.toNat / unit
  let rest := n.toNat % unit
  let rounded := if 2 * rest < unit ∨ 2 * rest = unit ∧ kept % 2 = 0 then kept else kept + 1
  UInt64.ofNat (min (rounded * unit) (2 ^ 64 - 1))

def saturatingSub (a b : UInt64) : UInt64 := if b ≤ a then a - b else 0

/-- Every caller samples at an interval of one second. -/
def deriveDashboardMetrics (previous : Option TransportSample) (current : TransportSample) :
    DashboardMetrics where
  latency := some current.rtt
  txTotalBytes := current.txBytes
  rxTotalBytes := current.rxBytes
  txRateBytes := match previous with
    | some previous => throughF64 (saturatingSub current.txBytes previous.txBytes)
    | none => 0
  rxRateBytes := match previous with
    | some previous => throughF64 (saturatingSub current.rxBytes previous.rxBytes)
    | none => 0

def applyDashboardMetrics (status : UiStatus) (metrics : DashboardMetrics) : UiStatus :=
  { status with
    latency := metrics.latency
    txTotalBytes := metrics.txTotalBytes
    rxTotalBytes := metrics.rxTotalBytes
    txRateBytes := metrics.txRateBytes
    rxRateBytes := metrics.rxRateBytes }

def UiStatus.reconnecting (status : UiStatus) (detail : String) : UiStatus :=
  { UiStatus.default with
    phase := .reconnecting
    remote := status.remote
    detail := detail
    serverUdpSupported := status.serverUdpSupported
    localUdpEnabled := status.localUdpEnabled
    udpEnabled := status.udpEnabled
    negotiatedTx := status.negotiatedTx
    latency := status.latency
    txTotalBytes := status.txTotalBytes
    rxTotalBytes := status.rxTotalBytes
    txRateBytes := 0
    rxRateBytes := 0
    localSocks := status.localSocks }

end Hysteria.Mobile
