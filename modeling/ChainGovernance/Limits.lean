/-!
The bounds on what is read from others, and on what a transaction may spend.
-/

namespace ChainGovernance

/-- The largest accepted lengths. -/
structure Limits where
  /-- Bytes of a method name. -/
  maxMethod : Nat := 256
  /-- Parameters of an invocation. -/
  maxParams : Nat := 64
  /-- Bytes of one encoded parameter. -/
  maxParamSize : Nat := 65536
  /-- Keys, or signatures, in one list of signers. -/
  maxSigners : Nat := 1024
  /-- Aggregate signatures of a transaction or a request. -/
  maxGroups : Nat := 16
  /-- Transactions of a block. -/
  maxTransactions : Nat := 16384
  /-- Bytes of a consensus payload. -/
  maxPayload : Nat := 1048576
deriving DecidableEq

/-- The gas that a transaction may use, unless it says otherwise. -/
def defaultGasLimit : UInt64 := 20000

end ChainGovernance
