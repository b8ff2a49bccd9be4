import ChainGovernance.Time

/-!
The settings of an operator.

How many wallets may sign at the same time is not among them. Nothing depends on it but which of
several refusals is reported, and here wallets are asked one after the other (`Aggregate.collect`).
-/

namespace ChainGovernance

/-- The settings of an operator. Durations are in nanoseconds. -/
structure Settings where
  /-- The version of every transaction. -/
  version : UInt8 := 0
  gasPrice : UInt64 := 2500
  /-- How long a node may take to answer one call. -/
  rpcTimeout : Nat := 10 * nanosPerSecond
  /-- How long to wait for a transaction to be confirmed, or for a height to be reached. -/
  confirmationTimeout : Nat := 30 * nanosPerSecond
  /-- The blocks, from that with the transaction on, that make it confirmed. -/
  confirmations : UInt32 := 1
  /-- How long to wait between two looks at the chain. -/
  pollInterval : Nat := nanosPerSecond
deriving DecidableEq

end ChainGovernance
