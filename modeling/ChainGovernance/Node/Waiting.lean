import ChainGovernance.Settings
import ChainGovernance.Node.Client

/-!
Waiting for a chain, with a deadline.

A wait looks at the chain, round after round, with a pause after each. It ends when a look finds
what it waits for, when a call fails, or when the deadline has come by the end of a round.
-/

namespace ChainGovernance.Client

open Node (Operation)

variable {σ α : Type}

/-- At most `rounds` rounds of looking, until the deadline. -/
def lookUntil (look : Client σ (Option α)) (interval : Nat) (deadline : Instant) (late : Error) :
    (rounds : Nat) → Client σ α
  | 0 => halt .endlessWait
  | rounds + 1 => do
    match ← look with
    | some v => pure v
    | none =>
      if deadline.nanos ≤ (← now).nanos then throw late
      else
        sleep interval
        lookUntil look interval deadline late rounds

/-- The rounds that a wait may take: those that the pauses leave room for, or those in which the
answers of the node may still change. -/
def roundsWithin (interval timeout repliesLeft : Nat) : Nat :=
  if interval = 0 then repliesLeft + 1 else timeout / interval + 2

/-- Looks, round after round, until something is found. -/
def waitFor (node : Node σ) (settings : Settings) (operation : Operation)
    (look : Client σ (Option α)) : Client σ α := do
  let deadline ← fromNow settings.confirmationTimeout
  let w : World σ ← get
  lookUntil look settings.pollInterval deadline (.timeout operation settings.confirmationTimeout)
    (roundsWithin settings.pollInterval settings.confirmationTimeout (node.repliesLeft w.node))

/-- The height at which a transaction that was included at `height` is confirmed. -/
def confirmedAt (confirmations height : UInt32) : Nat :=
  min (height.toNat + (max confirmations.toNat 1 - 1)) 0xFFFFFFFF

/-- Waits for a transaction to be confirmed, and tells the height at which it was included. -/
def waitForTransaction (node : Node σ) (settings : Settings) (hash : Digest) : Client σ UInt32 :=
  waitFor node settings .waitForTransaction do
    match ← call node settings.rpcTimeout (.transactionHeight hash) with
    | none => pure none
    | some height =>
      let current : UInt32 ← call node settings.rpcTimeout .currentHeight
      pure (if confirmedAt settings.confirmations height ≤ current.toNat then some height else none)

/-- Waits for the chain to reach a height, and tells the height that it has reached. -/
def waitForBlocks (node : Node σ) (settings : Settings) (height : UInt32) : Client σ UInt32 :=
  waitFor node settings .waitForBlocks do
    let current : UInt32 ← call node settings.rpcTimeout .currentHeight
    pure (if height ≤ current then some current else none)

end ChainGovernance.Client
