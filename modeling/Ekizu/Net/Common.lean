import Mathlib.Tactic.Common

/-!
# What sockets carry
-/

namespace Ekizu.Net

abbrev Bytes := List UInt8

/-- The error codes that the streams and the sockets complete with. -/
inductive Error where
  | closed
  | operationCanceled
  | udpClosed
  | udpNotConnected
  | other (code : Nat)
  deriving DecidableEq

/-- A UDP endpoint: the address, as its bytes, and the port. -/
structure Endpoint where
  address : Bytes
  port : UInt16
  deriving DecidableEq

end Ekizu.Net
