import ChainGovernance.Block

/-!
Nodes: what they are asked, and what they do then.

A node is any state with a way to take calls. It may answer, report an error, or stay silent, and
every call may change it; so the calls of other clients, faults, and answers that contradict each
other are all nodes.
-/

namespace ChainGovernance.Node

/-- What a node is asked. -/
inductive Call
  /-- The height of its last block. -/
  | currentHeight
  /-- Its block at a height. -/
  | blockByHeight (height : UInt32)
  /-- To take in a transaction, and to name it. -/
  | sendRawTransaction (transaction : Bytes)
  /-- The height of the block with the transaction of a name. -/
  | transactionHeight (hash : Digest)
  /-- The root of the chain after a block with a root of transactions. -/
  | foldRoot (transactionsRoot : Digest)
  /-- What a contract keeps under a key. -/
  | storage (contract : Address) (key : Bytes)
deriving DecidableEq

namespace Call

abbrev Reply : Call → Type
  | currentHeight => UInt32
  | blockByHeight _ => Option Block
  | sendRawTransaction _ => Digest
  | transactionHeight _ => Option UInt32
  | foldRoot _ => Digest
  | storage _ _ => Option Bytes

/-- The name under which a call fails. -/
def operation : Call → Operation
  | currentHeight => .currentHeight
  | blockByHeight _ => .blockByHeight
  | sendRawTransaction _ => .sendRawTransaction
  | transactionHeight _ => .transactionHeight
  | foldRoot _ => .foldRoot
  | storage _ _ => .storage

end Call

/-- What comes back from a call. -/
inductive Answer (α : Type)
  | value (v : α)
  | failure (e : Error)
  /-- Nothing ever comes back. -/
  | silence

/-- What a call does to a node with state `σ`. -/
structure Reaction (σ α : Type) where
  answer : Answer α
  state : σ
  /-- The nanoseconds that pass before the answer. -/
  lag : Nat := 0

/-- Why a run cannot go on. -/
inductive Halt
  /-- The chain has no room for a further block. -/
  | chainExhausted
  /-- The clock would leave the range of instants. -/
  | clockOutOfRange
  /-- Time does not pass while the run waits for it. -/
  | endlessWait
deriving DecidableEq

end Node

/-- A way to take calls. -/
structure Node (σ : Type) where
  respond : (call : Node.Call) → σ → Except Node.Halt (Node.Reaction σ call.Reply)
  /-- How many calls may still be answered otherwise than the calls before them. -/
  repliesLeft : σ → Nat := fun _ => 0

end ChainGovernance
