import Mathlib.Tactic.Common

/-! The errors of `errors.rs` that the modelled code returns. -/
namespace Hysteria.Core

inductive ProtocolError where
  | invalidAddressLength
  | invalidMessageLength
  | invalidPaddingLength
  | varintOverflow
  | unexpectedEof
  | invalidHeaderValue
  | io (message : String)
deriving DecidableEq, Repr

inductive CoreError where
  | protocol (error : ProtocolError)
  | closed (text : String)
  | config (text : String)
  | connect (text : String)
  | transport (text : String)
  | authentication (status : Nat)
  | dial (text : String)
  | unexpectedFrameType (frameType : UInt64)
deriving DecidableEq, Repr

end Hysteria.Core
