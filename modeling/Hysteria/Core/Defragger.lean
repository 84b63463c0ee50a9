import Hysteria.Core.UdpMessage
import Hysteria.Lib.PartialMap
import Hysteria.Lib.Slots

/-! Reassembling fragmented messages, `Defragger` in `frag.rs`. A map holds the
packets received in part and a queue their ids in the order of arrival, so that
the oldest is dropped when too many are in flight. -/
namespace Hysteria.Core
open Lib

def maxInFlightPackets : Nat := 64

structure PacketState where
  sessionId : UInt32
  addr : String
  fragments : List (Option UDPMessage)
  count : UInt8
  size : Nat
deriving DecidableEq, Repr

structure Defragger where
  packets : PartialMap UInt16 PacketState
  order : List UInt16

namespace Defragger

def empty : Defragger := ⟨.empty, []⟩

def removePacket (self : Defragger) (packetId : UInt16) : Defragger where
  packets := self.packets.remove packetId
  order := self.order.erase packetId

/-- The loop of `insert_packet` that makes room for one more packet. -/
def evict (packets : PartialMap UInt16 PacketState) : List UInt16 → Defragger
  | [] => ⟨packets, []⟩
  | oldest :: order =>
    if (oldest :: order).length ≥ maxInFlightPackets then evict (packets.remove oldest) order
    else ⟨packets, oldest :: order⟩

def insertPacket (self : Defragger) (packetId : UInt16) (fragCount : Nat) (message : UDPMessage) :
    Exec ε Defragger := do
  let self := self.removePacket packetId
  let self := evict self.packets self.order
  let fragments ← setIndex (List.replicate fragCount none) message.fragId.toNat (some message)
  return {
    packets := self.packets.insert packetId {
      sessionId := message.sessionId
      addr := message.addr
      fragments
      count := 1
      size := message.data.length }
    order := self.order ++ [packetId] }

/-- The loop that concatenates the payloads of a complete packet. -/
def assemble (fragments : List (Option UDPMessage)) : Exec ε (List UInt8) :=
  fragments.foldlM (fun data fragment => return data ++ (← expect fragment).data) []

def resetPacket (self : Defragger) (message : UDPMessage) : Bool :=
  match self.packets.get message.packetId with
  | some state => state.sessionId != message.sessionId || state.addr != message.addr ||
      state.fragments.length != message.fragCount.toNat
  | none => true

def feed (profile : Profile) (self : Defragger) (message : UDPMessage) :
    Exec ε (Option UDPMessage × Defragger) := do
  if message.fragCount ≤ 1 then return (some message, self)
  if message.fragId ≥ message.fragCount then return (none, self)
  let packetId := message.packetId
  let fragIndex := message.fragId.toNat
  let fragCount := message.fragCount.toNat
  if self.resetPacket message then
    let self ← self.insertPacket packetId fragCount message
    return (none, self)
  match self.packets.get packetId with
  | none => return (none, self)
  | some state =>
    let slot ← index state.fragments fragIndex
    let state ← if slot.isNone then do
        let count ← addU8 profile state.count 1
        let fragments ← setIndex state.fragments fragIndex (some message)
        pure { state with size := state.size + message.data.length, count, fragments }
      else pure state
    let self := { self with packets := self.packets.insert packetId state }
    if state.count.toNat = state.fragments.length then
      let data ← assemble state.fragments
      return (some { message with data, fragId := 0, fragCount := 1 }, self.removePacket packetId)
    return (none, self)

def feedAll (profile : Profile) (self : Defragger) :
    List UDPMessage → Exec ε (List (Option UDPMessage) × Defragger)
  | [] => .ok ([], self)
  | message :: messages => do
    let (out, self) ← self.feed profile message
    let (outs, self) ← self.feedAll profile messages
    return (out :: outs, self)

end Defragger
end Hysteria.Core
