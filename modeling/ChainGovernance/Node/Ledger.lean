import ChainGovernance.Node.Client

/-!
A chain that is kept in memory.

Transactions that are sent stay pending until a block is sealed, which then carries all of them.
Each block folds the root of its transactions into the root of the chain. Switches make the ledger
seal at certain calls, fail, stay silent, or report wrong names.
-/

namespace ChainGovernance

open Node (Answer Call Halt Reaction)

/-- The root of a chain after a block with a root of transactions. -/
def foldRoot (previous transactionsRoot : Digest) : Digest :=
  hash (previous.toBytes ++ transactionsRoot.toBytes)

/-- How a ledger behaves, apart from keeping a chain. -/
structure Switches where
  /-- A query for a transaction seals the pending ones. -/
  autoSeal : Bool := false
  /-- A query for a folded root seals a block. -/
  advanceOnFold : Bool := false
  /-- No call is answered. -/
  hang : Bool := false
  /-- Every call fails. -/
  unavailable : Bool := false
  /-- Transactions that are sent are given wrong names. -/
  misreportHashes : Bool := false
deriving DecidableEq

/-- A chain in memory. -/
structure Ledger where
  /-- The blocks below the tip, in the order of their heights. -/
  earlier : List Block := []
  /-- The last block. -/
  tip : Block
  /-- The transactions that no block carries yet, in the order in which they were sent. -/
  pending : List Transaction := []
  /-- The height of the last block with a transaction of a name. -/
  included : List (Digest × UInt32) := []
  /-- What contracts keep under keys. -/
  storage : List ((Address × Bytes) × Bytes) := []
  /-- All that was sent and taken in, in order. -/
  submitted : List Bytes := []
  switches : Switches := {}
deriving DecidableEq

namespace Ledger

/-- The ledger with a first block alone. -/
def new (timestamp : UInt32) : Ledger := { tip := .genesis timestamp }

/-- All blocks, in the order of their heights. -/
def blocks (l : Ledger) : List Block := l.earlier ++ [l.tip]

/-- The pairs with `key` bound to `value`, whatever it was bound to. -/
def bind {κ ν : Type} [DecidableEq κ] (key : κ) (value : ν) (pairs : List (κ × ν)) :
    List (κ × ν) :=
  (key, value) :: pairs.filter fun p => p.1 ≠ key

/-- The block that would be sealed now. -/
def nextBlock (l : Ledger) : Except Error Block :=
  Block.extend l.tip.tip 0 l.tip.header.timestamp
    (foldRoot l.tip.header.blockRoot (transactionsRoot l.pending)) {} l.pending

/-- Seals a block with all pending transactions. -/
def sealBlock (l : Ledger) : Except Halt Ledger :=
  match l.nextBlock with
  | .error _ => .error .chainExhausted
  | .ok b =>
    .ok { l with
      earlier := l.blocks
      tip := b
      pending := []
      included := l.pending.foldl (fun m t => bind t.hash b.height m) l.included }

def store (l : Ledger) (contract : Address) (key value : Bytes) : Ledger :=
  { l with storage := bind (contract, key) value l.storage }

/-- Takes in a transaction, or tells why its bytes are none. -/
def send (l : Ledger) (b : Bytes) : Except Error (Digest × Ledger) :=
  match (Transaction.format {}).decode b with
  | .error e => .error (.remoteUnavailable .sendRawTransaction e.message)
  | .ok t =>
    let name := if l.switches.misreportHashes then hash t.hash.toBytes else t.hash
    .ok (name, { l with submitted := l.submitted ++ [b], pending := l.pending ++ [t] })

def sealIf (l : Ledger) (condition : Bool) : Except Halt Ledger :=
  if condition then l.sealBlock else .ok l

/-- What a ledger does at a call that it is willing to answer. -/
def serve (l : Ledger) : (call : Call) → Except Halt (Reaction Ledger call.Reply)
  | .currentHeight => .ok ⟨.value l.tip.height, l, 0⟩
  | .blockByHeight height => .ok ⟨.value l.blocks[height.toNat]?, l, 0⟩
  | .sendRawTransaction b =>
    match l.send b with
    | .error e => .ok ⟨.failure e, l, 0⟩
    | .ok (name, l) => .ok ⟨.value name, l, 0⟩
  | .transactionHeight name => do
    let l ← l.sealIf (l.switches.autoSeal && !l.pending.isEmpty)
    pure ⟨.value (l.included.lookup name), l, 0⟩
  | .foldRoot root => do
    let folded := foldRoot l.tip.header.blockRoot root
    let l ← l.sealIf l.switches.advanceOnFold
    pure ⟨.value folded, l, 0⟩
  | .storage contract key => .ok ⟨.value (l.storage.lookup (contract, key)), l, 0⟩

/-- What a ledger does at a call. -/
def respond (call : Call) (l : Ledger) : Except Halt (Reaction Ledger call.Reply) :=
  if l.switches.unavailable then
    .ok ⟨.failure (.remoteUnavailable call.operation "connection refused"), l, 0⟩
  else if l.switches.hang then .ok ⟨.silence, l, 0⟩
  else l.serve call

def node : Node Ledger := { respond := respond }

end Ledger

end ChainGovernance
